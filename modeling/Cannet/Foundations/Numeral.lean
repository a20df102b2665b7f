import Mathlib.Data.Nat.Digits.Lemmas

/-!
# Numerals

The digits of a number in a base, highest first and without leading zeros; zero has one digit
(`numeral`). A loop that takes digits off the low end makes them one by one (`numeral_of_lt`,
`numeral_of_le`), and reading them from the high end gives the number back (`readDigits_numeral`).
-/

namespace Cannet.Foundations

/-- The digits of `n` in base `b`, highest first. -/
def numeral (b n : ℕ) : List ℕ := if n = 0 then [0] else (Nat.digits b n).reverse

/-- The number with the given digits, highest first. -/
def readDigits (b : ℕ) (ds : List ℕ) : ℕ := ds.foldl (fun n d => n * b + d) 0

variable {b n : ℕ}

theorem numeral_of_lt (hn : n < b) : numeral b n = [n] := by
  rw [numeral]
  split
  · rename_i hzero
    rw [hzero]
  · rename_i hzero
    rw [Nat.digits_of_lt b n hzero hn, List.reverse_singleton]

theorem numeral_of_le (hb : 1 < b) (hn : b ≤ n) :
    numeral b n = numeral b (n / b) ++ [n % b] := by
  have hpos : n ≠ 0 := by omega
  have hdiv : n / b ≠ 0 := Nat.div_ne_zero_iff.2 ⟨by omega, hn⟩
  rw [numeral, if_neg hpos, numeral, if_neg hdiv, Nat.digits_def' hb (Nat.pos_of_ne_zero hpos),
    List.reverse_cons]

theorem numeral_ne_nil : numeral b n ≠ [] := by
  rw [numeral]
  split
  · exact List.cons_ne_nil _ _
  · rename_i hpos
    exact List.reverse_ne_nil_iff.2 (Nat.digits_ne_nil_iff_ne_zero.2 hpos)

theorem lt_of_mem_numeral (hb : 1 < b) {d : ℕ} (hd : d ∈ numeral b n) : d < b := by
  rw [numeral] at hd
  split at hd
  · rw [List.mem_singleton] at hd
    omega
  · exact Nat.digits_lt_base hb (List.mem_reverse.1 hd)

/-- There are no leading zeros. -/
theorem eq_zero_of_head_numeral (h : (numeral b n).head? = some 0) : n = 0 := by
  by_contra hpos
  rw [numeral, if_neg hpos, List.head?_reverse, List.getLast?_eq_some_iff] at h
  obtain ⟨ds, hds⟩ := h
  have hne : Nat.digits b n ≠ [] := Nat.digits_ne_nil_iff_ne_zero.2 hpos
  refine Nat.getLast_digit_ne_zero b hpos ?_
  rw [List.getLast_congr hne (by simp) hds, List.getLast_concat]

theorem readDigits_append (ds : List ℕ) (d : ℕ) :
    readDigits b (ds ++ [d]) = readDigits b ds * b + d := by
  rw [readDigits, List.foldl_append]
  rfl

/-- **Reading back** gives the number. -/
theorem readDigits_numeral (hb : 1 < b) (n : ℕ) : readDigits b (numeral b n) = n := by
  induction n using Nat.strong_induction_on with
  | _ n ih =>
    rcases Nat.lt_or_ge n b with hlt | hge
    · rw [numeral_of_lt hlt]
      simp [readDigits]
    · have hdiv : n / b < n := Nat.div_lt_self (by omega) hb
      rw [numeral_of_le hb hge, readDigits_append, ih _ hdiv, Nat.mul_comm]
      exact Nat.div_add_mod n b

theorem length_numeral_le (hb : 1 < b) {k : ℕ} (hk : 0 < k) (hn : n < b ^ k) :
    (numeral b n).length ≤ k := by
  rw [numeral]
  split
  · exact hk
  · rw [List.length_reverse]
    exact (Nat.digits_length_le_iff hb n).2 hn

end Cannet.Foundations
