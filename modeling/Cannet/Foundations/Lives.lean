import Cannet.Foundations.Act
import Mathlib.Data.Nat.Notation
import Mathlib.Logic.Function.Basic

/-!
# Objects that live more than once

Objects that are put aside when they are done with and used again later: each use is a life. What
an object does is recorded with the object and the life it was done in (`LifeEffect`); `lifeTrace`
is what one life of one object has done. `Lives J` says that `J` holds of every life so far, of the
current one together with the object as it is. It is kept when a new object is made, when an object
begins another life, and when an object does something that keeps `J`.
-/

namespace Cannet.Foundations

variable {δ ε τ : Type}

/-- Something done by an object in one of its lives. -/
structure LifeEffect (ε : Type) where
  obj : ℕ
  life : ℕ
  effect : ε
  deriving DecidableEq, Repr

/-- What an object has done in one of its lives. -/
def lifeTrace (es : List (LifeEffect ε)) (obj life : ℕ) : List ε :=
  es.filterMap fun e => if e.obj = obj ∧ e.life = life then some e.effect else none

@[simp] theorem lifeTrace_nil (obj life : ℕ) :
    lifeTrace ([] : List (LifeEffect ε)) obj life = [] := rfl

@[simp] theorem lifeTrace_append (es es' : List (LifeEffect ε)) (obj life : ℕ) :
    lifeTrace (es ++ es') obj life = lifeTrace es obj life ++ lifeTrace es' obj life :=
  List.filterMap_append

@[simp] theorem lifeTrace_tag (es : List ε) (obj life : ℕ) :
    lifeTrace (es.map (LifeEffect.mk obj life)) obj life = es := by
  simp [lifeTrace, List.filterMap_map]

theorem lifeTrace_tag_of_ne {obj life obj' life' : ℕ} (h : ¬(obj = obj' ∧ life = life'))
    (es : List ε) : lifeTrace (es.map (LifeEffect.mk obj life)) obj' life' = [] := by
  simp [lifeTrace, List.filterMap_map, h]

theorem mem_lifeTrace {es : List (LifeEffect ε)} {obj life : ℕ} {e : ε} :
    e ∈ lifeTrace es obj life ↔ ⟨obj, life, e⟩ ∈ es := by
  rw [lifeTrace, List.mem_filterMap]
  constructor
  · rintro ⟨⟨obj', life', e'⟩, hmem, he⟩
    split at he
    · rename_i heq
      obtain ⟨rfl, rfl⟩ := heq
      obtain rfl := Option.some.inj he
      exact hmem
    · cases he
  · intro hmem
    exact ⟨_, hmem, if_pos ⟨rfl, rfl⟩⟩

/-- `J` holds of every life of the objects below `made`; the others have not been used. -/
structure Lives (J : List ε → τ → Prop) (es : List (LifeEffect ε)) (made : ℕ) (life : ℕ → ℕ)
    (obj : ℕ → τ) : Prop where
  current : ∀ i < made, J (lifeTrace es i (life i)) (obj i)
  past : ∀ i < made, ∀ l < life i, ∃ t, J (lifeTrace es i l) t
  bound : ∀ e ∈ es, e.obj < made ∧ e.life ≤ life e.obj
  unused : ∀ i, made ≤ i → life i = 0

namespace Lives

variable {J : List ε → τ → Prop} {es : List (LifeEffect ε)} {made : ℕ} {life : ℕ → ℕ} {obj : ℕ → τ}

theorem start (J : List ε → τ → Prop) (obj : ℕ → τ) : Lives J [] 0 (fun _ => 0) obj where
  current _ h := absurd h (Nat.not_lt_zero _)
  past _ h := absurd h (Nat.not_lt_zero _)
  bound _ h := absurd h List.not_mem_nil
  unused _ _ := rfl

/-- Nothing has been done in a life that is yet to come. -/
theorem lifeTrace_of_lt (h : Lives J es made life obj) {i l : ℕ} (hl : life i < l) :
    lifeTrace es i l = [] := by
  refine List.eq_nil_iff_forall_not_mem.2 fun e he => ?_
  have hbound := (h.bound _ (mem_lifeTrace.1 he)).2
  simp only at hbound
  omega

/-- Nothing has been done by an object that is yet to be made. -/
theorem lifeTrace_of_le (h : Lives J es made life obj) {i : ℕ} (hi : made ≤ i) (l : ℕ) :
    lifeTrace es i l = [] := by
  refine List.eq_nil_iff_forall_not_mem.2 fun e he => ?_
  have hbound := (h.bound _ (mem_lifeTrace.1 he)).1
  simp only at hbound
  omega

theorem imp {J' : List ε → τ → Prop} (hJ : ∀ es t, J es t → J' es t)
    (h : Lives J es made life obj) : Lives J' es made life obj where
  current i hi := hJ _ _ (h.current i hi)
  past i hi l hl := (h.past i hi l hl).imp fun t ht => hJ _ t ht
  bound := h.bound
  unused := h.unused

/-- **Every life** of every object that was made satisfies `J`. -/
theorem all (h : Lives J es made life obj) {i l : ℕ} (hi : i < made) (hl : l ≤ life i) :
    ∃ t, J (lifeTrace es i l) t := by
  rcases Nat.lt_or_eq_of_le hl with hlt | rfl
  · exact h.past i hi l hlt
  · exact ⟨_, h.current i hi⟩

/-- An object does something. -/
theorem act (h : Lives J es made life obj) {i : ℕ} (hi : i < made) {new : List ε} {t : τ}
    (hJ : J (lifeTrace es i (life i) ++ new) t) :
    Lives J (es ++ new.map (LifeEffect.mk i (life i))) made life (Function.update obj i t) where
  current j hj := by
    rw [lifeTrace_append]
    by_cases heq : j = i
    · subst heq
      rwa [lifeTrace_tag, Function.update_self]
    · rw [lifeTrace_tag_of_ne (fun hij => heq hij.1.symm), List.append_nil,
        Function.update_of_ne heq]
      exact h.current j hj
  past j hj l hl := by
    have hne : ¬(i = j ∧ life i = l) := fun heq => by
      obtain ⟨rfl, rfl⟩ := heq
      exact Nat.lt_irrefl _ hl
    rw [lifeTrace_append, lifeTrace_tag_of_ne hne, List.append_nil]
    exact h.past j hj l hl
  bound e he := by
    rcases List.mem_append.1 he with he | he
    · exact h.bound e he
    · obtain ⟨e, -, rfl⟩ := List.mem_map.1 he
      exact ⟨hi, Nat.le_refl _⟩
  unused := h.unused

/-- A new object is made. -/
theorem make (h : Lives J es made life obj) {new : List ε} {t : τ} (hJ : J new t) :
    Lives J (es ++ new.map (LifeEffect.mk made 0)) (made + 1) life
      (Function.update obj made t) where
  current j hj := by
    rw [lifeTrace_append]
    by_cases heq : j = made
    · subst heq
      rw [h.unused j (Nat.le_refl j), h.lifeTrace_of_le (Nat.le_refl j), lifeTrace_tag,
        Function.update_self]
      exact hJ
    · rw [lifeTrace_tag_of_ne (fun hij => heq hij.1.symm), List.append_nil,
        Function.update_of_ne heq]
      exact h.current j (by omega)
  past j hj l hl := by
    have hjm : j ≠ made := fun heq => by
      rw [heq, h.unused made (Nat.le_refl made)] at hl
      omega
    rw [lifeTrace_append, lifeTrace_tag_of_ne (fun hij => hjm hij.1.symm), List.append_nil]
    exact h.past j (by omega) l hl
  bound e he := by
    rcases List.mem_append.1 he with he | he
    · exact ⟨Nat.lt_succ_of_lt (h.bound e he).1, (h.bound e he).2⟩
    · obtain ⟨e, -, rfl⟩ := List.mem_map.1 he
      exact ⟨Nat.lt_succ_self made, Nat.zero_le _⟩
  unused j hj := h.unused j (by omega)

/-- An object begins another life. -/
theorem again (h : Lives J es made life obj) {i : ℕ} (hi : i < made) {new : List ε} {t : τ}
    (hJ : J new t) :
    Lives J (es ++ new.map (LifeEffect.mk i (life i + 1))) made
      (Function.update life i (life i + 1)) (Function.update obj i t) where
  current j hj := by
    rw [lifeTrace_append]
    by_cases heq : j = i
    · subst heq
      rw [Function.update_self, h.lifeTrace_of_lt (Nat.lt_succ_self _), lifeTrace_tag,
        Function.update_self]
      exact hJ
    · rw [lifeTrace_tag_of_ne (fun hij => heq hij.1.symm), List.append_nil,
        Function.update_of_ne heq, Function.update_of_ne heq]
      exact h.current j hj
  past j hj l hl := by
    rw [lifeTrace_append]
    by_cases heq : j = i
    · subst heq
      rw [Function.update_self] at hl
      rw [lifeTrace_tag_of_ne (by omega), List.append_nil]
      exact h.all hj (by omega)
    · rw [Function.update_of_ne heq] at hl
      rw [lifeTrace_tag_of_ne (fun hij => heq hij.1.symm), List.append_nil]
      exact h.past j hj l hl
  bound e he := by
    rcases List.mem_append.1 he with he | he
    · obtain ⟨hobj, hlife⟩ := h.bound e he
      refine ⟨hobj, ?_⟩
      by_cases heq : e.obj = i
      · rw [heq, Function.update_self]
        rw [heq] at hlife
        omega
      · rwa [Function.update_of_ne heq]
    · obtain ⟨e, -, rfl⟩ := List.mem_map.1 he
      refine ⟨hi, ?_⟩
      exact Nat.le_of_eq (Function.update_self i (life i + 1) life).symm
  unused j hj := by
    have hne : j ≠ i := by omega
    rw [Function.update_of_ne hne]
    exact h.unused j hj

end Lives

end Cannet.Foundations
