import Mathlib.Logic.Basic
import Mathlib.Data.List.Basic

/-!
# A batch whose members may take each other out

The members of a list have their turn one after another. One that has its turn may remove others,
before or behind it in the list or elsewhere; one that has been removed before its turn is passed
over. `turns` is the list of those that have their turn. If the list is in a strict order, a
member has its turn exactly when nothing earlier that had its turn removed it (`mem_turns`).
-/

namespace Cannet.Foundations

variable {α : Type} [DecidableEq α] (removes : α → List α)

/-- The members that have their turn, when `removed` are out from the start. -/
def turns : List α → (α → Bool) → List α
  | [], _ => []
  | a :: due, removed =>
    if removed a then turns due removed
    else a :: turns due fun b => removed b || decide (b ∈ removes a)

theorem turns_sublist (due : List α) (removed : α → Bool) :
    (turns removes due removed).Sublist due := by
  induction due generalizing removed with
  | nil => exact .slnil
  | cons a due ih =>
    rw [turns]
    split
    · exact (ih removed).cons a
    · exact (ih _).cons_cons a

/-- **Who has a turn.** In a strictly ordered batch, those that were not out from the start and
that nothing before them in the order has removed. -/
theorem mem_turns {r : α → α → Prop} (hasymm : ∀ a b, r a b → ¬r b a) {due : List α}
    (hdue : due.Pairwise r) (removed : α → Bool) (a : α) :
    a ∈ turns removes due removed ↔
      a ∈ due ∧ removed a = false ∧ ∀ b ∈ turns removes due removed, r b a → a ∉ removes b := by
  induction due generalizing removed with
  | nil => simp [turns]
  | cons x due ih =>
    obtain ⟨hx, hdue⟩ := List.pairwise_cons.1 hdue
    rw [turns]
    split
    · rename_i hout
      rw [ih hdue removed, List.mem_cons]
      constructor
      · rintro ⟨hmem, hrest⟩
        exact ⟨.inr hmem, hrest⟩
      · rintro ⟨rfl | hmem, hin, hrest⟩
        · simp [hout] at hin
        · exact ⟨hmem, hin, hrest⟩
    · rename_i hin
      have hstep := ih hdue (fun b => removed b || decide (b ∈ removes x))
      have hlater : ∀ b ∈ turns removes due fun b => removed b || decide (b ∈ removes x),
          r x b := fun b hb => hx b ((turns_sublist removes due _).subset hb)
      simp only [List.mem_cons, forall_eq_or_imp]
      constructor
      · rintro (rfl | ha)
        · refine ⟨.inl rfl, Bool.eq_false_iff.2 hin, fun h => absurd h (hasymm a a h), ?_⟩
          exact fun b hb hba => absurd hba (hasymm a b (hlater b hb))
        · obtain ⟨hmem, hout, hrest⟩ := hstep.1 ha
          simp only [Bool.or_eq_false_iff, decide_eq_false_iff_not] at hout
          exact ⟨.inr hmem, hout.1, fun _ => hout.2, hrest⟩
      · rintro ⟨rfl | hmem, hfree, hself, hrest⟩
        · exact .inl rfl
        · refine .inr (hstep.2 ⟨hmem, ?_, hrest⟩)
          simp [hfree, hself (hx a hmem)]

/-! ## The front of a queue -/

section Front

variable {β : Type} {p : β → Bool} {l : List β}

/-- In a queue where what satisfies `p` comes first, `takeWhile` takes all of it. -/
theorem mem_takeWhile_iff (h : l.Pairwise fun a b => p b = true → p a = true) (a : β) :
    a ∈ l.takeWhile p ↔ a ∈ l ∧ p a = true := by
  induction l with
  | nil => simp
  | cons x l ih =>
    obtain ⟨hx, hl⟩ := List.pairwise_cons.1 h
    rw [List.takeWhile_cons]
    split
    · rename_i hpx
      rw [List.mem_cons, List.mem_cons, ih hl]
      constructor
      · rintro (rfl | ⟨hmem, hp⟩)
        · exact ⟨.inl rfl, hpx⟩
        · exact ⟨.inr hmem, hp⟩
      · rintro ⟨rfl | hmem, hp⟩
        · exact .inl rfl
        · exact .inr ⟨hmem, hp⟩
    · rename_i hpx
      simp only [List.not_mem_nil, List.mem_cons, false_iff, not_and]
      rintro (rfl | hmem) hp
      · exact hpx hp
      · exact hpx (hx a hmem hp)

/-- And `dropWhile` leaves the rest. -/
theorem mem_dropWhile_iff (h : l.Pairwise fun a b => p b = true → p a = true) (a : β) :
    a ∈ l.dropWhile p ↔ a ∈ l ∧ p a = false := by
  induction l with
  | nil => simp
  | cons x l ih =>
    obtain ⟨hx, hl⟩ := List.pairwise_cons.1 h
    rw [List.dropWhile_cons]
    split
    · rename_i hpx
      rw [ih hl, List.mem_cons]
      constructor
      · rintro ⟨hmem, hp⟩
        exact ⟨.inr hmem, hp⟩
      · rintro ⟨rfl | hmem, hp⟩
        · simp [hpx] at hp
        · exact ⟨hmem, hp⟩
    · rename_i hpx
      refine ⟨fun hmem => ⟨hmem, Bool.eq_false_iff.2 fun hp => ?_⟩, fun h => h.1⟩
      rcases List.mem_cons.1 hmem with rfl | hmem
      · exact hpx hp
      · exact hpx (hx a hmem hp)

/-- Dropping from the front loses nothing that does not satisfy `p`. -/
theorem mem_dropWhile_of_not {a : β} (ha : p a = false) : a ∈ l.dropWhile p ↔ a ∈ l := by
  refine ⟨fun h => (List.dropWhile_sublist p).subset h, fun h => ?_⟩
  induction l with
  | nil => exact h
  | cons x l ih =>
    rw [List.dropWhile_cons]
    split
    · rename_i hpx
      rcases List.mem_cons.1 h with rfl | hmem
      · simp [hpx] at ha
      · exact ih hmem
    · exact h

end Front

end Cannet.Foundations
