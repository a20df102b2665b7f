import Mathlib.Data.List.Basic
import Mathlib.Logic.Function.Basic

/-!
# Objects that are made and referred to

A `Store` holds the objects a program makes; a reference is a number, given out once by
`Store.alloc`. References may be copied, so what tells two of them apart is a count: in a list of
references (`none` is a null pointer) that is `Distinct`, an object that is written through one of
them is not seen through the others (`Store.map_read_set`).
-/

namespace Cannet.Foundations

variable {α α' : Type}

structure Store (α : Type) where
  made : ℕ
  get : ℕ → α

namespace Store

variable (m : Store α) (i : ℕ) (a : α)

/-- The store with one more object. Its reference is `m.made`. -/
def alloc : Store α := ⟨m.made + 1, Function.update m.get m.made a⟩

def set : Store α := { m with get := Function.update m.get i a }

@[simp] theorem made_alloc : (m.alloc a).made = m.made + 1 := rfl

@[simp] theorem made_set : (m.set i a).made = m.made := rfl

@[simp] theorem get_alloc_self : (m.alloc a).get m.made = a := Function.update_self ..

@[simp] theorem get_set_self : (m.set i a).get i = a := Function.update_self ..

variable {m i}

theorem get_alloc_of_lt {j : ℕ} (h : j < m.made) : (m.alloc a).get j = m.get j :=
  Function.update_of_ne (Nat.ne_of_lt h) _ _

theorem get_set_of_ne {j : ℕ} (h : j ≠ i) : (m.set i a).get j = m.get j :=
  Function.update_of_ne h _ _

end Store

/-! ## References -/

/-- No object is referred to twice. -/
def Distinct (l : List (Option ℕ)) : Prop := ∀ i, l.count (some i) ≤ 1

theorem Distinct.mono {l l' : List (Option ℕ)} (h : Distinct l)
    (hle : ∀ i, l'.count (some i) ≤ l.count (some i)) : Distinct l' :=
  fun i => Nat.le_trans (hle i) (h i)

/-- A reference at the head of the list occurs nowhere else. -/
theorem Distinct.notMem {l : List (Option ℕ)} {i : ℕ} (h : Distinct (some i :: l)) :
    some i ∉ l := by
  have hi := h i
  rw [List.count_cons_self] at hi
  exact List.count_eq_zero.1 (by omega)

/-- The list refers to objects of the store, to each at most once. -/
structure Store.Refers (m : Store α) (l : List (Option ℕ)) : Prop where
  distinct : Distinct l
  made : ∀ i, some i ∈ l → i < m.made

namespace Store.Refers

variable {m : Store α} {l l' : List (Option ℕ)}

/-- References may be moved and dropped. -/
theorem mono (h : m.Refers l) (hle : ∀ i, l'.count (some i) ≤ l.count (some i)) :
    m.Refers l' where
  distinct := h.distinct.mono hle
  made i hi := by
    refine h.made i (List.count_pos_iff.1 ?_)
    have hpos := List.count_pos_iff.2 hi
    have := hle i
    omega

theorem set (h : m.Refers l) (i : ℕ) (a : α) : (m.set i a).Refers l := ⟨h.distinct, h.made⟩

/-- A new object is referred to once. -/
theorem alloc (h : m.Refers l) (a : α) : (m.alloc a).Refers (some m.made :: l) where
  distinct i := by
    have hi := h.distinct i
    by_cases hself : i = m.made
    · subst hself
      have hfresh : some m.made ∉ l := fun hmem => absurd (h.made _ hmem) (Nat.lt_irrefl _)
      have hzero : l.count (some m.made) = 0 := List.count_eq_zero.2 hfresh
      rw [List.count_cons_self]
      omega
    · rw [List.count_cons_of_ne fun hmi => hself (Option.some.inj hmi).symm]
      exact hi
  made i hi := by
    rw [Store.made_alloc]
    rcases List.mem_cons.1 hi with hself | hmem
    · have := Option.some.inj hself
      omega
    · have := h.made i hmem
      omega

end Store.Refers

/-- What is read through a reference. -/
def Store.read (m : Store α) (d : α') (f : α → α') (p : Option ℕ) : α' := p.elim d (f ∘ m.get)

theorem Store.read_set_of_ne {m : Store α} {i : ℕ} {a : α} {d : α'} {f : α → α'} {p : Option ℕ}
    (h : p ≠ some i) : (m.set i a).read d f p = m.read d f p := by
  cases p with
  | none => rfl
  | some j => exact congrArg f (Store.get_set_of_ne a fun hji => h (congrArg some hji))

theorem Store.read_alloc {m : Store α} {a : α} {d : α'} {f : α → α'} {p : Option ℕ}
    (h : ∀ i, p = some i → i < m.made) : (m.alloc a).read d f p = m.read d f p := by
  cases p with
  | none => rfl
  | some i => exact congrArg f (Store.get_alloc_of_lt a (h i rfl))

/-- An object is not seen through a list of references that it does not occur in. -/
theorem Store.map_read_set {m : Store α} {i : ℕ} {a : α} {d : α'} {f : α → α'}
    {l : List (Option ℕ)} (h : some i ∉ l) :
    l.map ((m.set i a).read d f) = l.map (m.read d f) :=
  List.map_congr_left fun _ hp => Store.read_set_of_ne fun hpi => h (hpi ▸ hp)

end Cannet.Foundations
