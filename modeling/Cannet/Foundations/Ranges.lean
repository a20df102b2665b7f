import Mathlib.Algebra.BigOperators.Group.List.Basic
import Mathlib.Algebra.Ring.Nat
import Mathlib.Data.List.Range
import Mathlib.Data.Nat.Notation

/-!
# A file handed over in pieces

A piece of a file is a pair: where it starts and how long it is. Pieces that each start at the sum
of the lengths before them cover the file once, from its beginning and without a gap
(`units_eq_range`). When every piece starts at twice that sum, they do so only if all pieces
before the last are empty (`startsAt_id_iff`).
-/

namespace Cannet.Foundations

/-- The length of all pieces together. -/
def total (l : List (ℕ × ℕ)) : ℕ := (l.map Prod.snd).sum

/-- The positions covered, in the order they are. -/
def units (l : List (ℕ × ℕ)) : List ℕ := l.flatMap fun x => List.range' x.1 x.2

/-- Each piece starts at `g` of the length of the pieces before it. -/
def StartsAt (g : ℕ → ℕ) (l : List (ℕ × ℕ)) : Prop :=
  ∀ k (h : k < l.length), l[k].1 = g (total (l.take k))

@[simp] theorem total_nil : total [] = 0 := rfl

@[simp] theorem total_append (l l' : List (ℕ × ℕ)) : total (l ++ l') = total l + total l' := by
  simp [total]

@[simp] theorem total_singleton (x : ℕ × ℕ) : total [x] = x.2 := by
  simp [total]

theorem total_eq_zero {l : List (ℕ × ℕ)} : total l = 0 ↔ ∀ x ∈ l, x.2 = 0 := by
  rw [total, List.sum_eq_zero_iff_forall_eq_nat, List.forall_mem_map]

theorem startsAt_nil (g : ℕ → ℕ) : StartsAt g [] := fun k h => absurd h (Nat.not_lt_zero k)

theorem startsAt_concat {g : ℕ → ℕ} {l : List (ℕ × ℕ)} {x : ℕ × ℕ} :
    StartsAt g (l ++ [x]) ↔ StartsAt g l ∧ x.1 = g (total l) := by
  constructor
  · intro h
    refine ⟨fun k hk => ?_, ?_⟩
    · have := h k (by simp; omega)
      rwa [List.getElem_append_left hk, List.take_append_of_le_length (Nat.le_of_lt hk)] at this
    · have := h l.length (by simp)
      simpa using this
  · rintro ⟨h, hx⟩ k hk
    rcases Nat.lt_or_ge k l.length with hlt | hge
    · rw [List.getElem_append_left hlt, List.take_append_of_le_length (Nat.le_of_lt hlt)]
      exact h k hlt
    · have hkl : k = l.length := by
        simp only [List.length_append, List.length_singleton] at hk
        omega
      subst hkl
      simpa using hx

/-- **Consecutive pieces cover the file once.** -/
theorem units_eq_range {l : List (ℕ × ℕ)} (h : StartsAt id l) :
    units l = List.range (total l) := by
  induction l using List.reverseRecOn with
  | nil => rfl
  | append_singleton l x ih =>
    obtain ⟨hl, hx⟩ := startsAt_concat.1 h
    have hcat : List.range (total l + x.2) = List.range (total l) ++ List.range' (total l) x.2 := by
      rw [List.range_eq_range', List.range_eq_range', ← List.range'_append_1, Nat.zero_add]
    rw [total_append, total_singleton, hcat, ← ih hl]
    simp only [id] at hx
    simp [units, hx]

/-- Pieces that start at twice the length before them are consecutive exactly when all but the
last are empty. -/
theorem startsAt_id_iff {l : List (ℕ × ℕ)} (h : StartsAt (2 * ·) l) :
    StartsAt id l ↔ ∀ x ∈ l.dropLast, x.2 = 0 := by
  constructor
  · intro hid
    rcases Nat.eq_zero_or_pos l.length with hnil | hpos
    · simp [List.length_eq_zero_iff.1 hnil]
    · have h₁ := h (l.length - 1) (by omega)
      have h₂ := hid (l.length - 1) (by omega)
      simp only [id] at h₁ h₂
      rw [List.dropLast_eq_take]
      exact total_eq_zero.1 (by omega)
  · intro hzero k hk
    have htake : total (l.take k) = 0 := by
      refine total_eq_zero.2 fun x hx => hzero x ?_
      have hle : k ≤ l.length - 1 := by omega
      rw [List.dropLast_eq_take]
      exact (List.take_subset_take_left l hle) hx
    have := h k hk
    simp only [htake] at this ⊢
    exact this

end Cannet.Foundations
