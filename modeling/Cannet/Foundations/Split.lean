import Mathlib.Data.List.Infix

/-!
# Cutting a list at a separator

A list is cut at the occurrences of a separator, the leftmost first and each behind the one before
(`Splits`). What is cut off stays cut off when the list gets longer, so a list may be cut while it
arrives: what is left of one part is cut together with the next (`Splits.append`), and it does not
matter how the list was divided (`Splits.unique`).

`search` looks for the leftmost occurrence.
-/

namespace Cannet.Foundations

variable {α : Type} {sep l m line rest left : List α} {lines : List (List α)}

/-- The separator first occurs in the list behind `line`, with `rest` after it. -/
structure FirstAt (sep l line rest : List α) : Prop where
  eq : l = line ++ (sep ++ rest)
  least : ∀ pre, pre ++ sep <+: l → line.length ≤ pre.length

/-- The separator does not occur in the list. -/
def Free (sep l : List α) : Prop := ∀ pre, ¬pre ++ sep <+: l

/-- The list cut at the separators: the lines in front of them, and what is left. -/
inductive Splits (sep : List α) : List α → List (List α) → List α → Prop
  | done {l : List α} (h : Free sep l) : Splits sep l [] l
  | line {l line rest left : List α} {lines : List (List α)} (h : FirstAt sep l line rest)
      (htail : Splits sep rest lines left) : Splits sep l (line :: lines) left

namespace FirstAt

theorem occurs (h : FirstAt sep l line rest) : line ++ sep <+: l := by
  rw [h.eq, ← List.append_assoc]
  exact List.prefix_append _ _

/-- The list may go on. -/
theorem append (h : FirstAt sep l line rest) (m : List α) :
    FirstAt sep (l ++ m) line (rest ++ m) := by
  refine ⟨by rw [h.eq]; simp only [List.append_assoc], fun pre hpre => ?_⟩
  by_contra hlt
  -- an earlier occurrence would end inside `l`
  have hlen : (pre ++ sep).length ≤ l.length := by
    have hle := h.occurs.length_le
    rw [List.length_append] at hle ⊢
    omega
  exact hlt (h.least pre (List.prefix_of_prefix_length_le hpre (List.prefix_append l m) hlen))

theorem unique {line' rest' : List α} (h : FirstAt sep l line rest)
    (h' : FirstAt sep l line' rest') : line = line' ∧ rest = rest' := by
  have hlen : line.length = line'.length :=
    Nat.le_antisymm (h.least _ h'.occurs) (h'.least _ h.occurs)
  obtain ⟨hline, htail⟩ := List.append_inj (h.eq.symm.trans h'.eq) hlen
  exact ⟨hline, List.append_cancel_left htail⟩

end FirstAt

namespace Splits

/-- **Cut while it arrives**: what is left of the first part is cut together with the second. -/
theorem append {lines' : List (List α)} {left' : List α} (h : Splits sep l lines left)
    (h' : Splits sep (left ++ m) lines' left') : Splits sep (l ++ m) (lines ++ lines') left' := by
  induction h with
  | done => exact h'
  | line hfirst _ ih => exact .line (hfirst.append m) (ih h')

/-- A list is cut in one way only. -/
theorem unique {lines' : List (List α)} {left' : List α} (h : Splits sep l lines left)
    (h' : Splits sep l lines' left') : lines = lines' ∧ left = left' := by
  induction h generalizing lines' with
  | done hfree =>
    cases h' with
    | done => exact ⟨rfl, rfl⟩
    | line hfirst => exact absurd hfirst.occurs (hfree _)
  | line hfirst _ ih =>
    cases h' with
    | done hfree => exact absurd hfirst.occurs (hfree _)
    | line hfirst' htail' =>
      obtain ⟨rfl, rfl⟩ := hfirst.unique hfirst'
      obtain ⟨rfl, rfl⟩ := ih htail'
      exact ⟨rfl, rfl⟩

end Splits

/-! ## Looking for it -/

section Search

variable [DecidableEq α]

/-- Where the separator first occurs, the length of the list if it does not: `std::search`. -/
def search (sep : List α) : List α → ℕ
  | [] => 0
  | a :: l => if sep.isPrefixOf (a :: l) then 0 else search sep l + 1

/-- **`search` finds the first occurrence**, or there is none. -/
theorem search_spec (hsep : sep ≠ []) (l : List α) :
    (search sep l = l.length ∧ Free sep l) ∨
      ∃ line rest, search sep l = line.length ∧ line.length < l.length ∧
        FirstAt sep l line rest := by
  induction l with
  | nil =>
    refine .inl ⟨rfl, fun pre hpre => hsep ?_⟩
    exact (List.append_eq_nil_iff.1 (List.prefix_nil.1 hpre)).2
  | cons a l ih =>
    rw [search]
    by_cases hhere : sep.isPrefixOf (a :: l)
    · obtain ⟨rest, hrest⟩ := List.isPrefixOf_iff_prefix.1 hhere
      rw [if_pos hhere]
      exact .inr ⟨[], rest, rfl, Nat.succ_pos _, hrest.symm, fun _ _ => Nat.zero_le _⟩
    · have hnot : ∀ pre, pre ++ sep <+: a :: l → ∃ pre', pre = a :: pre' ∧ pre' ++ sep <+: l := by
        intro pre hpre
        cases pre with
        | nil => exact absurd (List.isPrefixOf_iff_prefix.2 hpre) hhere
        | cons a' pre =>
          rw [List.cons_append, List.cons_prefix_cons] at hpre
          exact ⟨pre, by rw [hpre.1], hpre.2⟩
      rw [if_neg hhere]
      rcases ih with ⟨hlen, hfree⟩ | ⟨line, rest, hlen, hlt, hfirst⟩
      · refine .inl ⟨by rw [hlen, List.length_cons], fun pre hpre => ?_⟩
        obtain ⟨pre', -, hpre'⟩ := hnot pre hpre
        exact hfree pre' hpre'
      · refine .inr ⟨a :: line, rest, by rw [hlen, List.length_cons], ?_, ?_, ?_⟩
        · rw [List.length_cons, List.length_cons]
          omega
        · rw [hfirst.eq, List.cons_append]
        · intro pre hpre
          obtain ⟨pre', rfl, hpre'⟩ := hnot pre hpre
          have hle := hfirst.least pre' hpre'
          rw [List.length_cons, List.length_cons]
          omega

end Search

end Cannet.Foundations
