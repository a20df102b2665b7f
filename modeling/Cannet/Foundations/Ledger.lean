import Mathlib.Data.List.Basic

/-!
# Resources that are closed once

Numbers that stand for a resource while it is open, and may stand for something else once it is
closed. An owner takes and closes resources; `owns` says which numbers are its own after what it
has done so far. `ClosedOnce` says that it closes what it has taken, and only while it owns it.
-/

namespace Cannet.Foundations

variable {κ : Type}

/-- What an owner does with a number. -/
inductive Deed (κ : Type)
  | take (k : κ)
  | close (k : κ)
  deriving DecidableEq, Repr

variable [DecidableEq κ]

/-- Whether the number is owned after one more deed. -/
def Deed.step (k : κ) (owned : Bool) : Deed κ → Bool
  | take k' => owned || k' = k
  | close k' => owned && k' ≠ k

/-- Whether the number is owned after the deeds. -/
def owns (k : κ) (ds : List (Deed κ)) : Bool := ds.foldl (Deed.step k) false

/-- The owner closes what it has taken, and nothing that is not its own at the time. -/
structure ClosedOnce (ds : List (Deed κ)) : Prop where
  owned : ∀ pre k post, ds = pre ++ .close k :: post → owns k pre = true
  settled : ∀ k, owns k ds = false

theorem owns_append (k : κ) (ds ds' : List (Deed κ)) :
    owns k (ds ++ ds') = ds'.foldl (Deed.step k) (owns k ds) := List.foldl_append

/-- What has just been closed is not owned. -/
theorem owns_close (k : κ) (ds : List (Deed κ)) : owns k (ds ++ [.close k]) = false := by
  simp [owns_append, Deed.step]

/-- **Closing twice in a row** is closing something that is not owned. -/
theorem ClosedOnce.not_twice {ds pre post : List (Deed κ)} {k : κ}
    (hds : ds = pre ++ .close k :: .close k :: post) : ¬ClosedOnce ds := by
  intro h
  have hsplit : ds = (pre ++ [.close k]) ++ .close k :: post := by
    rw [hds, List.append_assoc, List.singleton_append]
  have howned := h.owned _ k post hsplit
  rw [owns_close] at howned
  cases howned

end Cannet.Foundations
