import Mathlib.Data.List.Basic

/-!
# Linked nodes

`Linked next i l j` says that the nodes of `l` lead from `i` to `j`: the first is `i`, each has a
successor, which is the next one, and the successor of the last is `j`. The node `j` is not in
the list and may have no successor, as the last node of a queue that ends in an unused one.
-/

namespace Cannet.Foundations

variable {ι : Type} {next next' : ι → Option ι} {i j k : ι} {l : List ι}

inductive Linked (next : ι → Option ι) : ι → List ι → ι → Prop
  | nil (i : ι) : Linked next i [] i
  | cons {i j k : ι} {l : List ι} (h : next i = some k) (hl : Linked next k l j) :
    Linked next i (i :: l) j

namespace Linked

/-- A node is linked behind the last one. -/
theorem snoc (h : Linked next i l j) (hj : next j = some k) : Linked next i (l ++ [j]) k := by
  induction h with
  | nil i => exact .cons hj (.nil k)
  | cons h _ ih => exact .cons h (ih hj)

/-- The links of other nodes do not matter. -/
theorem congr (h : Linked next i l j) (hsame : ∀ k ∈ l, next' k = next k) :
    Linked next' i l j := by
  induction h with
  | nil i => exact .nil i
  | cons h _ ih =>
    refine .cons ((hsame _ List.mem_cons_self).trans h) (ih fun k hk => ?_)
    exact hsame k (List.mem_cons_of_mem _ hk)

/-- The first node, and what it leads to. -/
theorem uncons (h : Linked next i (k :: l) j) :
    k = i ∧ ∃ i', next i = some i' ∧ Linked next i' l j := by
  cases h with
  | cons h hl => exact ⟨rfl, _, h, hl⟩

/-- Every node of the list has a successor. -/
theorem next_isSome (h : Linked next i l j) : ∀ k ∈ l, (next k).isSome = true := by
  induction h with
  | nil i => exact fun k hk => absurd hk List.not_mem_nil
  | cons h _ ih =>
    intro k hk
    rcases List.mem_cons.1 hk with rfl | hk
    · rw [h, Option.isSome_some]
    · exact ih k hk

/-- The list is empty when its ends are the same node. -/
theorem eq_nil_iff (h : Linked next i l j) (hj : j ∉ l) : l = [] ↔ i = j := by
  cases h with
  | nil i => exact iff_of_true rfl rfl
  | cons h hl =>
    refine iff_of_false (List.cons_ne_nil _ _) ?_
    rintro rfl
    exact hj List.mem_cons_self

end Linked

end Cannet.Foundations
