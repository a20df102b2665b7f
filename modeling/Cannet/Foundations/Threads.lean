import Cannet.Foundations.Run
import Mathlib.Algebra.BigOperators.Group.Finset.Basic
import Mathlib.Logic.Function.Basic

/-!
# Steps of several threads

The threads of a program take turns: each step is a call on the state they share, made by one of
them, and a run is any order of steps. A step that cannot be made now *waits*; the run goes on with
another one. A step that must not be made *fails*, which is the end of the process.

`Act.await p x` is the step `x` of a thread that waits for `p`. Its rules are those of `x` with `p`
as a hypothesis. `Excludes` says that a mutex is held by the thread that is inside its critical
section, and by no other. `Run.exists_stuck` is for threads that come to a stop: a run goes on until
none of them has a step to make.
-/

namespace Cannet.Foundations

variable {φ ε σ : Type}

/-- Why a step is not made. -/
inductive Halt (φ : Type)
  | waits
  | fails (fault : φ)
  deriving DecidableEq, Repr

/-- A step that is made does not wait. -/
theorem not_waits {α : Type} {v : Except (Halt φ) α} {a : α} {p : Prop} (h : v = .ok a)
    (hwaits : v = .error .waits) : p := by
  rw [h] at hwaits
  cases hwaits

/-- A step of a thread, with its result. -/
abbrev Step (φ ε σ : Type) := Act (Halt φ) ε σ

namespace Act

/-- The step `x`, once `p` holds. -/
def await (p : σ → Prop) [DecidablePred p] (x : Step φ ε σ Unit) : Step φ ε σ Unit := fun s =>
  if p s then x s else ⟨.error .waits, s, []⟩

variable {p : σ → Prop} [DecidablePred p] {x : Step φ ε σ Unit} {s : σ}

theorem await_pos (h : p s) : await p x s = x s := if_pos h

theorem await_neg (h : ¬p s) : await p x s = ⟨.error .waits, s, []⟩ := if_neg h

/-- **A step that is made** was allowed. -/
theorem await_ok (h : (await p x s).val = .ok ()) : p s ∧ (x s).val = .ok () := by
  by_cases hp : p s
  · rw [await_pos hp] at h
    exact ⟨hp, h⟩
  · rw [await_neg hp] at h
    cases h

/-- A step that fails was allowed. -/
theorem await_fails {fault : φ} (h : (await p x s).val = .error (.fails fault)) :
    p s ∧ (x s).val = .error (.fails fault) := by
  by_cases hp : p s
  · rw [await_pos hp] at h
    exact ⟨hp, h⟩
  · rw [await_neg hp] at h
    cases h

/-- An update that waits does not fail. -/
theorem await_modify_not_fails (g : σ → σ) (fault : φ) :
    (await p (modify g : Step φ ε σ Unit) s).val ≠ .error (.fails fault) := by
  intro h
  cases (await_fails h).2

theorem check_bind_ok {δ : Type} {d : δ} {q : Prop} [Decidable q] {f : Unit → Act δ ε σ Unit}
    (h : ((check d q >>= f) s).val = .ok ()) : q ∧ (f () s).val = .ok () := by
  by_cases hq : q
  · rw [check_pos d hq, pure_bind] at h
    exact ⟨hq, h⟩
  · rw [check_neg d hq, abort_bind] at h
    cases h

end Act

/-! ## Coming to a stop -/

section Stop

variable {ι δ : Type} {exec : ι → Act δ ε σ Unit}
  {Guard : List (Call ι δ ε σ) → Call ι δ ε σ → Prop} {s₀ s : σ} {calls : List (Call ι δ ε σ)}

/-- **A run comes to a stop** when each step of the threads in question makes a number smaller:
there is a way to go on, by their steps, after which none of them has a step to make. -/
theorem Run.exists_stuck_of_own {I : σ → Prop} {own : ι → Prop} (weight : σ → ℕ)
    (hguard : ∀ calls i s, own i → Guard calls (Call.make exec i s))
    (hstep : ∀ s i, I s → own i → (exec i s).val = .ok () →
      I (exec i s).state ∧ weight (exec i s).state < weight s)
    (h : Run exec Guard s₀ calls s) (hI : I s) :
    ∃ more s', Run exec Guard s₀ (calls ++ more) s' ∧ I s' ∧
      ∀ i, own i → (exec i s').val ≠ .ok () := by
  induction hn : weight s using Nat.strongRecOn generalizing calls s with
  | ind n ih =>
    by_cases hstuck : ∀ i, own i → (exec i s).val ≠ .ok ()
    · refine ⟨[], s, ?_, hI, hstuck⟩
      rwa [List.append_nil]
    · push Not at hstuck
      obtain ⟨i, hown, hok⟩ := hstuck
      obtain ⟨hI', hless⟩ := hstep s i hI hown hok
      obtain ⟨more, s', hrun, hs'⟩ :=
        ih _ (hn ▸ hless) (h.snoc i (hguard _ _ _ hown) hok) hI' rfl
      refine ⟨Call.make exec i s :: more, s', ?_, hs'⟩
      rwa [List.append_assoc] at hrun

/-- The same where every step is allowed. -/
theorem Run.exists_stuck {I : σ → Prop} {own : ι → Prop} (weight : σ → ℕ)
    (hguard : ∀ calls call, Guard calls call)
    (hstep : ∀ s i, I s → own i → (exec i s).val = .ok () →
      I (exec i s).state ∧ weight (exec i s).state < weight s)
    (h : Run exec Guard s₀ calls s) (hI : I s) :
    ∃ more s', Run exec Guard s₀ (calls ++ more) s' ∧ I s' ∧
      ∀ i, own i → (exec i s').val ≠ .ok () :=
  h.exists_stuck_of_own weight (fun _ _ _ _ => hguard _ _) hstep hI

/-- The weight of all threads, when one of them goes on. -/
theorem sum_weight_update {κ π : Type} [Fintype κ] [DecidableEq κ] (weight : π → ℕ) (place : κ → π)
    (c : κ) (b : π) :
    ∑ d, weight (Function.update place c b d) + weight (place c) =
      ∑ d, weight (place d) + weight b := by
  have hold := Finset.add_sum_erase Finset.univ (fun d => weight (place d)) (Finset.mem_univ c)
  have hnew := Finset.add_sum_erase Finset.univ
    (fun d => weight (Function.update place c b d)) (Finset.mem_univ c)
  have hrest : ∑ d ∈ Finset.univ.erase c, weight (Function.update place c b d) =
      ∑ d ∈ Finset.univ.erase c, weight (place d) := by
    refine Finset.sum_congr rfl fun d hd => ?_
    rw [Function.update_of_ne (Finset.ne_of_mem_erase hd)]
  rw [Function.update_self] at hnew
  omega

end Stop

/-! ## Mutexes -/

/-- The threads whose place is inside a critical section are the owner of its mutex. -/
def Excludes {κ π : Type} (owner : Option κ) (place : κ → π) (inside : π → Bool) : Prop :=
  ∀ c, inside (place c) = true ↔ owner = some c

namespace Excludes

variable {κ π : Type} {owner : Option κ} {place : κ → π} {inside : π → Bool} {b : π} {c d : κ}

theorem unique (h : Excludes owner place inside) (hc : inside (place c) = true)
    (hd : inside (place d) = true) : c = d :=
  Option.some.inj (((h c).1 hc).symm.trans ((h d).1 hd))

/-- A mutex that nobody owns has nobody inside. -/
theorem outside (h : Excludes none place inside) (c : κ) : inside (place c) = false := by
  rw [← Bool.not_eq_true, h c]
  exact nofun

variable [DecidableEq κ]

/-- A thread goes on, inside or outside. -/
theorem move (h : Excludes owner place inside) (hsame : inside b = inside (place c)) :
    Excludes owner (Function.update place c b) inside := by
  intro d
  by_cases hd : d = c
  · rw [hd, Function.update_self, hsame]
    exact h c
  · rw [Function.update_of_ne hd]
    exact h d

theorem enter (h : Excludes none place inside) (hb : inside b = true) :
    Excludes (some c) (Function.update place c b) inside := by
  intro d
  by_cases hd : d = c
  · rw [hd, Function.update_self]
    exact iff_of_true hb rfl
  · rw [Function.update_of_ne hd, h.outside d]
    exact iff_of_false Bool.false_ne_true fun heq => hd (Option.some.inj heq).symm

theorem leave (h : Excludes owner place inside) (hc : inside (place c) = true)
    (hb : inside b = false) : Excludes none (Function.update place c b) inside := by
  intro d
  refine iff_of_false (fun hd => ?_) nofun
  by_cases hdc : d = c
  · rw [hdc, Function.update_self, hb] at hd
    cases hd
  · rw [Function.update_of_ne hdc] at hd
    exact hdc (h.unique hd hc)

end Excludes

end Cannet.Foundations
