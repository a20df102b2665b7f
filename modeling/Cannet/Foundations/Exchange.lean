import Mathlib.Data.List.Count
import Mathlib.Data.List.Nodup
import Mathlib.Data.List.Pairwise
import Mathlib.Data.List.Perm.Basic
import Mathlib.Logic.Function.Basic

/-!
# Things that are held

A party holds things, receives some and releases some. `Exchange` says that it has lost none and
made none up: what it holds afterwards and what it released are what it held before and what it
received, in some order. Exchanges are put together one after another (`Exchange.trans`), and the
exchange of one party is one of all the parties together (`Exchange.party`), so that a system of
parties that hand things to each other conserves what they hold between them.
-/

namespace Cannet.Foundations

variable {α ι : Type}

/-- From `before` to `after`, having received and released some. -/
def Exchange (before received released after : List α) : Prop :=
  (after ++ released).Perm (before ++ received)

/-- All that the parties hold. -/
def holdings (parties : List ι) (held : ι → List α) : List α := parties.flatMap held

namespace Exchange

variable {a b c r r' x x' : List α}

theorem refl (a : List α) : Exchange a [] [] a := List.Perm.refl _

theorem receive (a r : List α) : Exchange a r [] (r ++ a) := by
  rw [Exchange, List.append_nil]
  exact List.perm_append_comm

theorem release (h : a.Perm (x ++ b)) : Exchange a [] x b := by
  rw [Exchange, List.append_nil]
  exact List.perm_append_comm.trans h.symm

theorem congr (h : Exchange a r x b) {a' b' : List α} (ha : a'.Perm a) (hb : b'.Perm b) :
    Exchange a' r x b' :=
  (hb.append_right x).trans (h.trans (ha.symm.append_right r))

/-- What was held already need not be received. -/
theorem of_held (h : Exchange a r x b) : Exchange (r ++ a) [] x b := by
  rw [Exchange, List.append_nil]
  exact List.Perm.trans h List.perm_append_comm

/-- One exchange after another. -/
protected theorem trans (h : Exchange a r x b) (h' : Exchange b r' x' c) :
    Exchange a (r ++ r') (x ++ x') c := by
  classical
  refine List.perm_iff_count.2 fun e => ?_
  have hfirst := h.count_eq e
  have hsecond := h'.count_eq e
  simp only [List.count_append] at hfirst hsecond ⊢
  omega

/-- What was held less what was released. -/
theorem diff [DecidableEq α] (h : Exchange a [] x b) {l : List α} (hl : l.Perm a) :
    (l.diff x).Perm b := by
  refine List.perm_iff_count.2 fun e => ?_
  have hcount := h.count_eq e
  have hsame := hl.count_eq e
  simp only [List.count_append, List.count_nil] at hcount
  rw [List.count_diff]
  omega

/-- What was released had been held. -/
theorem mem_of_released (h : Exchange a [] x b) {e : α} (he : e ∈ x) : e ∈ a := by
  have hmem := (h.mem_iff (a := e)).1 (List.mem_append_right b he)
  rwa [List.append_nil] at hmem

/-- What is held besides does not take part. -/
theorem beside (h : Exchange a r x b) (l l' : List α) :
    Exchange (l ++ a ++ l') r x (l ++ b ++ l') := by
  classical
  refine List.perm_iff_count.2 fun e => ?_
  have hcount := h.count_eq e
  simp only [List.count_append] at hcount ⊢
  omega

end Exchange

/-! ## Many parties -/

section Parties

variable {parties parties' : List ι} {held held' : ι → List α}

@[simp] theorem holdings_nil (held : ι → List α) : holdings [] held = [] := rfl

@[simp] theorem holdings_append (parties parties' : List ι) (held : ι → List α) :
    holdings (parties ++ parties') held = holdings parties held ++ holdings parties' held :=
  List.flatMap_append

@[simp] theorem holdings_singleton (i : ι) (held : ι → List α) : holdings [i] held = held i :=
  List.flatMap_singleton _ _

theorem holdings_congr (h : ∀ i ∈ parties, held i = held' i) :
    holdings parties held = holdings parties held' := List.flatMap_congr h

theorem mem_holdings {e : α} : e ∈ holdings parties held ↔ ∃ i ∈ parties, e ∈ held i :=
  List.mem_flatMap

/-- **One party's exchange** is an exchange of all of them. -/
theorem Exchange.party {i : ι} {r x : List α} (h : Exchange (held i) r x (held' i))
    (hnodup : parties.Nodup) (hi : i ∈ parties) (hothers : ∀ j, j ≠ i → held' j = held j) :
    Exchange (holdings parties held) r x (holdings parties held') := by
  obtain ⟨l, l', rfl⟩ := List.append_of_mem hi
  have hne : ∀ j ∈ l ++ l', j ≠ i := fun j hj heq => by
    have hcons : (i :: (l ++ l')).Nodup := List.perm_middle.nodup_iff.1 hnodup
    exact (List.nodup_cons.1 hcons).1 (heq ▸ hj)
  have hleft : holdings l held' = holdings l held :=
    holdings_congr fun j hj => hothers j (hne j (List.mem_append_left _ hj))
  have hright : holdings l' held' = holdings l' held :=
    holdings_congr fun j hj => hothers j (hne j (List.mem_append_right _ hj))
  have hsplit : ∀ held'' : ι → List α,
      holdings (l ++ i :: l') held'' = holdings l held'' ++ held'' i ++ holdings l' held'' :=
    fun held'' => by
      rw [holdings_append, List.append_assoc]
      rfl
  rw [hsplit, hsplit, hleft, hright]
  exact h.beside _ _

/-- What one party holds it holds once. -/
theorem held_nodup (h : (holdings parties held).Nodup) {i : ι} (hi : i ∈ parties) :
    (held i).Nodup := (List.nodup_flatMap.1 h).1 i hi

end Parties

end Cannet.Foundations
