import Cannet.Foundations.Act

/-!
# Loops of calls

A loop whose body says whether it was the last round, cut off after a number of rounds. It ends if
some variant goes down from round to round (`loop_ends`), and never if an invariant keeps every
round from being the last (`loop_never`).
-/

namespace Cannet.Foundations

namespace Act

variable {δ ε σ : Type}

/-- The rounds of a loop, `n` at most; whether the last one was reached. -/
def loop (body : Act δ ε σ Bool) : ℕ → Act δ ε σ Bool
  | 0 => pure false
  | n + 1 => do
    let last ← body
    if last then pure true else loop body n

variable {body : Act δ ε σ Bool} {s s' : σ} {es : List ε}

theorem loop_last (h : body s = ⟨.ok true, s', es⟩) (n : ℕ) :
    loop body (n + 1) s = ⟨.ok true, s', es⟩ := by
  rw [loop, bind_ok h, if_pos rfl, pure_apply, Outcome.after_mk, List.append_nil]

theorem loop_next (h : body s = ⟨.ok false, s', es⟩) (n : ℕ) :
    loop body (n + 1) s = (loop body n s').after es := by
  rw [loop, bind_ok h, if_neg Bool.false_ne_true]

/-- A loop that ended goes no further if more rounds are allowed. -/
theorem loop_le {n m : ℕ} (h : loop body n s = ⟨.ok true, s', es⟩) (hle : n ≤ m) :
    loop body m s = ⟨.ok true, s', es⟩ := by
  induction n generalizing m s es with
  | zero => cases h
  | succ n ih =>
    obtain ⟨m, rfl⟩ := Nat.exists_eq_add_one_of_ne_zero (by omega : m ≠ 0)
    rcases hbody : body s with ⟨_ | _ | _, s₁, es₁⟩
    · rw [loop, bind_error hbody] at h
      cases h
    · rcases hrest : loop body n s₁ with ⟨v, s₂, es₂⟩
      rw [loop_next hbody, hrest, Outcome.after_mk] at h
      cases h
      rw [loop_next hbody, ih hrest (by omega), Outcome.after_mk]
    · rw [loop_last hbody] at h ⊢
      exact h

/-- **A loop with a variant ends.** `J` is its invariant, of what was done and the object; `Q` is
what the last round makes of it. -/
theorem loop_ends {J Q : List ε → σ → Prop} (variant : σ → ℕ)
    (hround : ∀ es s, J es s →
      (∃ s' es', body s = ⟨.ok true, s', es'⟩ ∧ Q (es ++ es') s') ∨
        ∃ s' es', body s = ⟨.ok false, s', es'⟩ ∧ J (es ++ es') s' ∧ variant s' < variant s)
    (h : J [] s) {n : ℕ} (hn : variant s < n) :
    ∃ s' es, loop body n s = ⟨.ok true, s', es⟩ ∧ Q es s' := by
  suffices hgen : ∀ done, J done s →
      ∃ s' es, loop body n s = ⟨.ok true, s', es⟩ ∧ Q (done ++ es) s' from hgen [] h
  clear h
  induction n generalizing s with
  | zero => omega
  | succ n ih =>
    intro done hJ
    rcases hround done s hJ with ⟨s', es', hbody, hQ⟩ | ⟨s', es', hbody, hJ', hlt⟩
    · exact ⟨s', es', loop_last hbody n, hQ⟩
    · have hn' : variant s' < n := by omega
      obtain ⟨s'', es'', hloop, hQ⟩ := ih hn' (done ++ es') hJ'
      refine ⟨s'', es' ++ es'', ?_, ?_⟩
      · rw [loop_next hbody, hloop, Outcome.after_mk]
      · rwa [← List.append_assoc]

/-- **A loop goes on for ever** while an invariant says that no round is the last. -/
theorem loop_never {I : σ → Prop}
    (hround : ∀ s, I s → ∃ s' es, body s = ⟨.ok false, s', es⟩ ∧ I s') (h : I s) (n : ℕ) :
    (loop body n s).val = .ok false := by
  induction n generalizing s with
  | zero => rfl
  | succ n ih =>
    obtain ⟨s', es, hbody, hI⟩ := hround s h
    rw [loop_next hbody, Outcome.val_after]
    exact ih hI

end Act

end Cannet.Foundations
