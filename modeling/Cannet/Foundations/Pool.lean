import Mathlib.Data.List.Basic
import Mathlib.Data.Nat.Notation
import Mathlib.Logic.Function.Basic

/-!
# Objects held under a key or kept in a pool

Objects move between a map from keys and a pool of spare ones. `Partitioned` says that every
object is in one place: one that is used is held under its key, once; the others are in the pool,
once. It is kept when a new object is held (`Partitioned.add`), when the last spare one is
(`Partitioned.reuse`), and when an object goes from its key to the pool (`Partitioned.release`).
A place of the pool may be empty (`none`); of a partitioned pool none is.
-/

namespace Cannet.Foundations

variable {ι κ : Type} {held : κ → Option ι} {pool : List (Option ι)} {i j : ι} {k k' : κ}

/-- `i` is held under `k`, under no other key, and is not in the pool. -/
structure Held (held : κ → Option ι) (pool : List (Option ι)) (i : ι) (k : κ) : Prop where
  key : ∀ k', held k' = some i ↔ k' = k
  pool : some i ∉ pool

/-- `i` is in the pool once and held under no key. -/
structure Pooled [DecidableEq ι] (held : κ → Option ι) (pool : List (Option ι)) (i : ι) : Prop where
  key : ∀ k, held k ≠ some i
  once : pool.count (some i) = 1

/-- Every object is held under its key, if it is used, or in the pool; nothing else is. -/
structure Partitioned [DecidableEq ι] (obj used : ι → Prop) (key : ι → κ)
    (held : κ → Option ι) (pool : List (Option ι)) : Prop where
  holds : ∀ i, obj i → used i → Held held pool i (key i)
  keeps : ∀ i, obj i → ¬used i → Pooled held pool i
  heldObj : ∀ k i, held k = some i → obj i
  poolObj : ∀ x ∈ pool, ∃ i, x = some i ∧ obj i

/-- Only `i` changes whether it is used, and its key. -/
def SameBut (i : ι) (used used' : ι → Prop) (key key' : ι → κ) : Prop :=
  ∀ j, j ≠ i → (used' j ↔ used j) ∧ key' j = key j

section Update

variable [DecidableEq κ]

theorem eq_of_update_some (h : Function.update held k (some i) k' = some j) :
    k' = k ∧ j = i ∨ k' ≠ k ∧ held k' = some j := by
  by_cases hk : k' = k
  · rw [hk, Function.update_self] at h
    exact .inl ⟨hk, (Option.some.inj h).symm⟩
  · rw [Function.update_of_ne hk] at h
    exact .inr ⟨hk, h⟩

theorem eq_of_update_none (h : Function.update held k none k' = some j) :
    k' ≠ k ∧ held k' = some j := by
  by_cases hk : k' = k
  · rw [hk, Function.update_self] at h
    cases h
  · rw [Function.update_of_ne hk] at h
    exact ⟨hk, h⟩

/-- Another object may be held under a key that is free. -/
theorem Held.install (h : Held held pool j k') (hfree : held k = none) (hne : j ≠ i) :
    Held (Function.update held k (some i)) pool j k' where
  key k'' := by
    by_cases hk : k'' = k
    · subst hk
      rw [Function.update_self, ← h.key k'', hfree]
      simp [Ne.symm hne]
    · rw [Function.update_of_ne hk]
      exact h.key k''
  pool := h.pool

/-- The object that is given a key is held under it. -/
theorem Held.self (hkey : ∀ k', held k' ≠ some i) (hpool : some i ∉ pool) :
    Held (Function.update held k (some i)) pool i k where
  key k' := by
    by_cases hk : k' = k
    · subst hk
      simp
    · rw [Function.update_of_ne hk]
      exact ⟨fun h => absurd h (hkey k'), fun h => absurd h hk⟩
  pool := hpool

end Update

namespace Partitioned

variable [DecidableEq ι] {obj obj' used used' : ι → Prop} {key key' : ι → κ}

/-- No place of the pool is empty. -/
theorem none_not_mem (h : Partitioned obj used key held pool) : none ∉ pool := fun hnone => by
  obtain ⟨i, hi, -⟩ := h.poolObj none hnone
  cases hi

/-- A used object is the one held under its key. -/
theorem held_key (h : Partitioned obj used key held pool) (hi : obj i) (hu : used i) :
    held (key i) = some i := ((h.holds i hi hu).key _).2 rfl

/-- A key that no used object has is free. -/
theorem free (h : Partitioned obj used key held pool) (hk : ∀ i, obj i → used i → key i ≠ k) :
    held k = none := by
  cases hheld : held k with
  | none => rfl
  | some i =>
    have hi := h.heldObj k i hheld
    by_cases hu : used i
    · exact absurd (((h.holds i hi hu).key k).1 hheld).symm (hk i hi hu)
    · exact absurd hheld ((h.keeps i hi hu).key k)

/-- What is at the end of the pool is an object that is not used. -/
theorem last_spare (h : Partitioned obj used key held pool) {x : Option ι}
    (hx : pool.getLast? = some x) : ∃ i, x = some i ∧ obj i ∧ ¬used i := by
  have hmem := List.mem_of_getLast? hx
  obtain ⟨i, rfl, hi⟩ := h.poolObj x hmem
  exact ⟨i, rfl, hi, fun hu => (h.holds i hi hu).pool hmem⟩

/-- Nothing moves. -/
theorem stay (h : Partitioned obj used key held pool) (hused : ∀ i, used' i ↔ used i)
    (hkey : ∀ i, key' i = key i) : Partitioned obj used' key' held pool := by
  obtain rfl : used' = used := funext fun i => propext (hused i)
  obtain rfl : key' = key := funext hkey
  exact h

variable [DecidableEq κ]

/-- **A new object** is held under a free key. -/
theorem add (h : Partitioned obj used key held pool) (hnew : ¬obj i) (hfree : held k = none)
    (hobj : ∀ j, obj' j ↔ obj j ∨ j = i) (hused : used' i) (hkey : key' i = k)
    (hsame : SameBut i used used' key key') :
    Partitioned obj' used' key' (Function.update held k (some i)) pool where
  holds j hj hu := by
    by_cases hji : j = i
    · subst hji
      rw [hkey]
      refine .self (fun k' hk' => hnew (h.heldObj k' j hk')) fun hmem => ?_
      obtain ⟨_, ⟨⟩, hj⟩ := h.poolObj _ hmem
      exact hnew hj
    · obtain ⟨hu', hk'⟩ := hsame j hji
      rw [hk']
      exact (h.holds j (((hobj j).1 hj).resolve_right hji) (hu'.1 hu)).install hfree hji
  keeps j hj hu := by
    have hji : j ≠ i := fun heq => hu (heq ▸ hused)
    have hspare := h.keeps j (((hobj j).1 hj).resolve_right hji)
      (fun hu' => hu ((hsame j hji).1.2 hu'))
    refine ⟨fun k' hk' => ?_, hspare.once⟩
    rcases eq_of_update_some hk' with ⟨-, heq⟩ | ⟨-, hk'⟩
    · exact hji heq
    · exact hspare.key k' hk'
  heldObj k' j hk' := by
    rcases eq_of_update_some hk' with ⟨-, heq⟩ | ⟨-, hk'⟩
    · exact (hobj j).2 (.inr heq)
    · exact (hobj j).2 (.inl (h.heldObj k' j hk'))
  poolObj x hx := by
    obtain ⟨j, hj, hmem⟩ := h.poolObj x hx
    exact ⟨j, hj, (hobj j).2 (.inl hmem)⟩

/-- **The last spare object** is held under a free key. -/
theorem reuse (h : Partitioned obj used key held pool) (hlast : pool.getLast? = some (some i))
    (hfree : held k = none) (hused : used' i) (hkey : key' i = k)
    (hsame : SameBut i used used' key key') :
    Partitioned obj used' key' (Function.update held k (some i)) pool.dropLast := by
  obtain ⟨i', hi', hobj, hidle⟩ := h.last_spare hlast
  obtain rfl : i = i' := Option.some.inj hi'
  have hi := h.keeps i hobj hidle
  have hpool : pool.dropLast ++ [some i] = pool := List.dropLast_append_getLast? _ hlast
  have hcount : ∀ j, pool.count (some j) = pool.dropLast.count (some j) + [some i].count (some j) :=
    fun j => by rw [← List.count_append, hpool]
  -- the object was in the pool once, at its end
  have hgone : some i ∉ pool.dropLast := by
    have honce := hcount i
    rw [hi.once, List.count_singleton_self] at honce
    exact List.count_eq_zero.1 (by omega)
  have hsub : ∀ x ∈ pool.dropLast, x ∈ pool := fun _ hx => List.dropLast_subset _ hx
  refine ⟨fun j hj hu => ?_, fun j hj hu => ?_, fun k' j hk' => ?_,
    fun x hx => h.poolObj x (hsub x hx)⟩
  · by_cases hji : j = i
    · subst hji
      rw [hkey]
      exact .self hi.key hgone
    · obtain ⟨hu', hk'⟩ := hsame j hji
      have hj' := h.holds j hj (hu'.1 hu)
      rw [hk']
      exact Held.install ⟨hj'.key, fun hmem => hj'.pool (hsub _ hmem)⟩ hfree hji
  · have hji : j ≠ i := fun heq => hu (heq ▸ hused)
    have hj' := h.keeps j hj fun hu' => hu ((hsame j hji).1.2 hu')
    refine ⟨fun k' hk' => ?_, ?_⟩
    · rcases eq_of_update_some hk' with ⟨-, heq⟩ | ⟨-, hk'⟩
      · exact hji heq
      · exact hj'.key k' hk'
    · have hone := hcount j
      rw [hj'.once, List.count_singleton, if_neg (by simpa using Ne.symm hji)] at hone
      exact hone.symm
  · rcases eq_of_update_some hk' with ⟨-, rfl⟩ | ⟨-, hk'⟩
    · exact hobj
    · exact h.heldObj k' j hk'

/-- **A used object** goes from its key to the pool. -/
theorem release (h : Partitioned obj used key held pool) (hi : obj i) (hu : used i)
    (hidle : ¬used' i) (hsame : SameBut i used used' key key') :
    Partitioned obj used' key' (Function.update held (key i) none) (pool ++ [held (key i)]) := by
  have hheld := h.holds i hi hu
  rw [h.held_key hi hu]
  refine ⟨fun j hj hu' => ?_, fun j hj hu' => ?_, fun k' j hk' => ?_, fun x hx => ?_⟩
  · have hji : j ≠ i := fun heq => hidle (heq ▸ hu')
    obtain ⟨hused, hk⟩ := hsame j hji
    have hj' := h.holds j hj (hused.1 hu')
    have hne : key j ≠ key i := fun heq => by
      have hsome := h.held_key hi hu
      rw [← heq, h.held_key hj (hused.1 hu')] at hsome
      exact hji (Option.some.inj hsome)
    rw [hk]
    refine ⟨fun k' => ⟨fun hk' => ?_, ?_⟩, ?_⟩
    · exact (hj'.key k').1 (eq_of_update_none hk').2
    · rintro rfl
      rw [Function.update_of_ne hne]
      exact h.held_key hj (hused.1 hu')
    · simp [hj'.pool, hji]
  · by_cases hji : j = i
    · subst hji
      refine ⟨fun k' hk' => ?_, ?_⟩
      · obtain ⟨hne, hk'⟩ := eq_of_update_none hk'
        exact hne ((hheld.key k').1 hk')
      · rw [List.count_append, List.count_eq_zero.2 hheld.pool, List.count_singleton_self]
    · have hj' := h.keeps j hj fun h' => hu' ((hsame j hji).1.2 h')
      refine ⟨fun k' hk' => hj'.key k' (eq_of_update_none hk').2, ?_⟩
      rw [List.count_append, hj'.once, List.count_singleton, if_neg (by simpa using Ne.symm hji)]
  · exact h.heldObj k' j (eq_of_update_none hk').2
  · rcases List.mem_append.1 hx with hx | hx
    · exact h.poolObj x hx
    · exact ⟨i, List.mem_singleton.1 hx, hi⟩

end Partitioned

end Cannet.Foundations
