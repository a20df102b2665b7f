import Mathlib.Data.List.Basic

/-!
# A queue that is handed over in batches

Items are put at the end of a list that waits. When the batch at hand is used up, the whole list
is swapped in as the next batch, and items are taken from the batch one by one. `Handoff` keeps
the items taken so far as well; a `Move` adds nothing but what it puts, so the items taken are at
any time the first of those put (`Handoff.taken_prefix`).
-/

namespace Cannet.Foundations

variable {α : Type}

structure Handoff (α : Type) where
  taken : List α
  batch : List α
  waiting : List α

namespace Handoff

/-- Everything that was put. -/
def all (q : Handoff α) : List α := q.taken ++ q.batch ++ q.waiting

/-- A move that puts the items of the list. -/
inductive Move : List α → Handoff α → Handoff α → Prop
  | rest (q : Handoff α) : Move [] q q
  | put (q : Handoff α) (a : α) : Move [a] q { q with waiting := q.waiting ++ [a] }
  | swap {q : Handoff α} (h : q.batch = []) :
    Move [] q { q with batch := q.waiting, waiting := [] }
  | take {q : Handoff α} {a : α} {rest : List α} (h : q.batch = a :: rest) :
    Move [] q { q with taken := q.taken ++ [a], batch := rest }

variable {new : List α} {q q' : Handoff α}

theorem Move.all_eq (h : Move new q q') : q'.all = q.all ++ new := by
  cases h with
  | rest => rw [List.append_nil]
  | put a => simp only [all, List.append_assoc]
  | swap h => simp [all, h]
  | take h => simp [all, h]

theorem taken_prefix (q : Handoff α) : q.taken <+: q.all :=
  ⟨q.batch ++ q.waiting, (List.append_assoc ..).symm⟩

end Handoff

end Cannet.Foundations
