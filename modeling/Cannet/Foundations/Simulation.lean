import Cannet.Foundations.Run

/-!
# Simulation of runs

A run of one object is explained by a run of another, coarser or more abstract one: each of its
calls is followed by some calls of the other, possibly none. `Run.simulate` is the induction; the
relation is between the two runs so far, so that it may speak of what was done in them.

-/

namespace Cannet.Foundations

variable {ι ι' δ δ' ε ε' σ τ : Type} {exec : ι → Act δ ε σ Unit} {exec' : ι' → Act δ' ε' τ Unit}
  {Guard : List (Call ι δ ε σ) → Call ι δ ε σ → Prop}
  {Guard' : List (Call ι' δ' ε' τ) → Call ι' δ' ε' τ → Prop} {s₀ s : σ} {t₀ : τ}
  {calls : List (Call ι δ ε σ)}

/-- **Forward simulation**: if each call of a run is followed by calls of the other object, then
the whole run is. -/
theorem Run.simulate {R : List (Call ι δ ε σ) → σ → List (Call ι' δ' ε' τ) → τ → Prop}
    (h₀ : R [] s₀ [] t₀)
    (hstep : ∀ calls s calls' t i, R calls s calls' t → Run exec' Guard' t₀ calls' t →
      Guard calls (Call.make exec i s) → (exec i s).val = .ok () →
      ∃ is, Replays exec' Guard' calls' is t ∧
        R (calls ++ [Call.make exec i s]) (exec i s).state (calls' ++ replay exec' is t)
          (replayState exec' is t))
    (h : Run exec Guard s₀ calls s) :
    ∃ calls' t, Run exec' Guard' t₀ calls' t ∧ R calls s calls' t := by
  refine h.invariant (I := fun calls s => ∃ calls' t, Run exec' Guard' t₀ calls' t ∧
    R calls s calls' t) ⟨[], t₀, .nil, h₀⟩ ?_
  intro calls s i ⟨calls', t, hrun, hR⟩ hg hok
  obtain ⟨is, hreplays, hR'⟩ := hstep calls s calls' t i hR hrun hg hok
  exact ⟨_, _, Run.append is hrun hreplays, hR'⟩

/-- A call that is made alone. -/
theorem Replays.one {calls' : List (Call ι' δ' ε' τ)} {t : τ} {i : ι'}
    (hg : Guard' calls' (Call.make exec' i t)) (hok : (exec' i t).val = .ok ()) :
    Replays exec' Guard' calls' [i] t :=
  ⟨hg, Outcome.returned_iff.2 hok, trivial⟩

@[simp] theorem replay_nil (t : τ) : replay exec' [] t = [] := rfl

@[simp] theorem replayState_nil (t : τ) : replayState exec' [] t = t := rfl

@[simp] theorem replay_one (i : ι') (t : τ) : replay exec' [i] t = [Call.make exec' i t] := rfl

@[simp] theorem replayState_one (i : ι') (t : τ) :
    replayState exec' [i] t = (exec' i t).state := rfl

end Cannet.Foundations
