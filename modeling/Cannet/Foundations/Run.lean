import Cannet.Foundations.Act

/-!
# Runs of calls on one object

A run is a list of calls made one after another on the same object, each allowed by a guard that
may look at the calls before it. A call that aborts ends the process, so every call of a run has
returned; what an aborting call does is a statement about the next call after a run.

`run_replay` makes a run of a list of inputs. `Run.invariant` is the induction: an invariant of the
calls made and the object holds after every run if the next call keeps it. `Run.keeps` is the same
for calls that keep an invariant of the trace in the sense of `Act.Keeps`.
-/

namespace Cannet.Foundations

variable {ι δ ε σ : Type}

/-- One call: its input, the object before it and what it left behind. -/
structure Call (ι δ ε σ : Type) where
  input : ι
  before : σ
  outcome : Outcome δ ε σ Unit

namespace Call

/-- The call with input `i` on the object `s`. -/
def make (exec : ι → Act δ ε σ Unit) (i : ι) (s : σ) : Call ι δ ε σ := ⟨i, s, exec i s⟩

variable (exec : ι → Act δ ε σ Unit) (i : ι) (s : σ)

@[simp] theorem make_input : (make exec i s).input = i := rfl

@[simp] theorem make_before : (make exec i s).before = s := rfl

@[simp] theorem make_outcome : (make exec i s).outcome = exec i s := rfl

end Call

/-- Everything done by the calls, in order. -/
def traceOf (calls : List (Call ι δ ε σ)) : List ε := calls.flatMap (·.outcome.trace)

@[simp] theorem traceOf_nil : traceOf ([] : List (Call ι δ ε σ)) = [] := rfl

@[simp] theorem traceOf_append (l l' : List (Call ι δ ε σ)) :
    traceOf (l ++ l') = traceOf l ++ traceOf l' := List.flatMap_append

@[simp] theorem traceOf_singleton (c : Call ι δ ε σ) : traceOf [c] = c.outcome.trace := by
  simp [traceOf]

/-- A list with one element that satisfies `P` splits at such an element in one way only. -/
theorem split_unique {α : Type} {P : α → Prop} {l₁ l₂ pre post : List α} {x y : α}
    (h : l₁ ++ x :: l₂ = pre ++ y :: post) (h₁ : ∀ a ∈ l₁, ¬P a) (h₂ : ∀ a ∈ l₂, ¬P a)
    (hy : P y) : pre = l₁ ∧ y = x ∧ post = l₂ := by
  rcases List.append_eq_append_iff.1 h with ⟨mid, rfl, hmid⟩ | ⟨mid, rfl, hmid⟩
  · cases mid with
    | nil =>
      obtain ⟨rfl, rfl⟩ := List.cons.inj hmid
      exact ⟨List.append_nil _, rfl, rfl⟩
    | cons a mid =>
      obtain ⟨-, rfl⟩ := List.cons.inj hmid
      exact absurd hy (h₂ y (by simp))
  · cases mid with
    | nil =>
      obtain ⟨rfl, rfl⟩ := List.cons.inj hmid
      exact ⟨(List.append_nil _).symm, rfl, rfl⟩
    | cons a mid =>
      obtain ⟨rfl, -⟩ := List.cons.inj hmid
      exact absurd hy (h₁ y (by simp))

/-- `P` holds of every element of a list, with the elements before it. -/
def Throughout {α : Type} (P : List α → α → Prop) (l : List α) : Prop :=
  ∀ pre x post, l = pre ++ x :: post → P pre x

theorem throughout_nil {α : Type} (P : List α → α → Prop) : Throughout P [] := by
  intro pre x post h
  simp at h

theorem throughout_snoc {α : Type} {P : List α → α → Prop} {l : List α} {x : α} :
    Throughout P (l ++ [x]) ↔ Throughout P l ∧ P l x := by
  constructor
  · intro h
    exact ⟨fun pre y post hl => h pre y (post ++ [x]) (by simp [hl]), h l x [] rfl⟩
  · rintro ⟨hinit, hlast⟩ pre y post hl
    rcases List.eq_nil_or_concat post with rfl | ⟨post, z, rfl⟩
    · obtain ⟨rfl, hx⟩ := List.append_inj' hl rfl
      obtain rfl := List.singleton_inj.1 hx
      exact hlast
    · rw [List.concat_eq_append, ← List.cons_append, ← List.append_assoc] at hl
      exact hinit pre y post (List.append_inj' hl rfl).1

/-- Runs from `s₀`: the calls made, and the object after them. -/
inductive Run (exec : ι → Act δ ε σ Unit)
    (Guard : List (Call ι δ ε σ) → Call ι δ ε σ → Prop) (s₀ : σ) :
    List (Call ι δ ε σ) → σ → Prop
  | nil : Run exec Guard s₀ [] s₀
  | snoc {calls : List (Call ι δ ε σ)} {s : σ} (i : ι) :
      Run exec Guard s₀ calls s → Guard calls (Call.make exec i s) →
      (exec i s).val = .ok () →
      Run exec Guard s₀ (calls ++ [Call.make exec i s]) (exec i s).state

namespace Run

variable {exec : ι → Act δ ε σ Unit} {Guard : List (Call ι δ ε σ) → Call ι δ ε σ → Prop}
  {s₀ s : σ} {calls : List (Call ι δ ε σ)}

/-- **Induction over a run**: what holds at the start and is kept by each allowed call that
returns holds after every run. -/
theorem invariant {I : List (Call ι δ ε σ) → σ → Prop} (h₀ : I [] s₀)
    (hstep : ∀ calls s i, I calls s → Guard calls (Call.make exec i s) →
      (exec i s).val = .ok () → I (calls ++ [Call.make exec i s]) (exec i s).state)
    (h : Run exec Guard s₀ calls s) : I calls s := by
  induction h with
  | nil => exact h₀
  | snoc i _ hg hok ih => exact hstep _ _ i ih hg hok

/-- An invariant of the trace and the object that every call keeps holds after every run. -/
theorem keeps {J : List ε → σ → Prop} (h₀ : J [] s₀) (hkeep : ∀ i, (exec i).Keeps J)
    (h : Run exec Guard s₀ calls s) : J (traceOf calls) s := by
  refine h.invariant (I := fun calls s => J (traceOf calls) s) h₀ fun calls s i hJ _ _ => ?_
  simpa using hkeep i (traceOf calls) s hJ

/-- Every call of a run is allowed by the guard. -/
theorem guarded (h : Run exec Guard s₀ calls s) : Throughout Guard calls :=
  h.invariant (I := fun calls _ => Throughout Guard calls) (throughout_nil Guard)
    fun _ _ _ hcalls hg _ => throughout_snoc.2 ⟨hcalls, hg⟩

/-- **A run can be taken apart at a call**: the calls before it are a run, and so are those after
it, from the object it leaves. -/
theorem split {pre post : List (Call ι δ ε σ)} {call : Call ι δ ε σ}
    (h : Run exec Guard s₀ (pre ++ call :: post) s) :
    Run exec Guard s₀ pre call.before ∧
      (Guard pre call ∧ call = Call.make exec call.input call.before ∧
        call.outcome.val = .ok ()) ∧
      Run exec (fun calls => Guard (pre ++ call :: calls)) call.outcome.state post s := by
  generalize hl : pre ++ call :: post = calls at h
  induction h generalizing post with
  | nil => simp at hl
  | @snoc calls s i hrun hg hok ih =>
    rcases List.eq_nil_or_concat post with rfl | ⟨post, last, rfl⟩
    · obtain ⟨rfl, hlast⟩ := List.append_inj' hl rfl
      obtain rfl := List.singleton_inj.1 hlast
      exact ⟨hrun, ⟨hg, rfl, hok⟩, .nil⟩
    · rw [List.concat_eq_append, ← List.cons_append, ← List.append_assoc] at hl
      obtain ⟨hinit, hlast⟩ := List.append_inj' hl rfl
      obtain rfl := List.singleton_inj.1 hlast
      obtain ⟨hpre, hcall, hpost⟩ := ih hinit
      subst hinit
      rw [List.concat_eq_append]
      exact ⟨hpre, hcall, .snoc i hpost hg hok⟩

end Run

/-! ## Running a list of inputs -/

/-- The calls with the given inputs, one after another. -/
def replay (exec : ι → Act δ ε σ Unit) : List ι → σ → List (Call ι δ ε σ)
  | [], _ => []
  | i :: is, s => Call.make exec i s :: replay exec is (exec i s).state

/-- The object after them. -/
def replayState (exec : ι → Act δ ε σ Unit) : List ι → σ → σ
  | [], s => s
  | i :: is, s => replayState exec is (exec i s).state

/-- Every call with the given inputs is allowed and returns. -/
def Replays (exec : ι → Act δ ε σ Unit)
    (Guard : List (Call ι δ ε σ) → Call ι δ ε σ → Prop) :
    List (Call ι δ ε σ) → List ι → σ → Prop
  | _, [], _ => True
  | calls, i :: is, s =>
    Guard calls (Call.make exec i s) ∧ (exec i s).returned = true ∧
      Replays exec Guard (calls ++ [Call.make exec i s]) is (exec i s).state

instance Replays.decidable (exec : ι → Act δ ε σ Unit)
    (Guard : List (Call ι δ ε σ) → Call ι δ ε σ → Prop)
    [∀ calls call, Decidable (Guard calls call)] :
    ∀ calls is s, Decidable (Replays exec Guard calls is s)
  | _, [], _ => isTrue trivial
  | calls, i :: is, s =>
    have := Replays.decidable exec Guard (calls ++ [Call.make exec i s]) is (exec i s).state
    inferInstanceAs (Decidable (Guard calls (Call.make exec i s) ∧ _ ∧ _))

theorem Run.append {exec : ι → Act δ ε σ Unit}
    {Guard : List (Call ι δ ε σ) → Call ι δ ε σ → Prop} {s₀ : σ} (is : List ι) :
    ∀ {calls : List (Call ι δ ε σ)} {s : σ}, Run exec Guard s₀ calls s →
      Replays exec Guard calls is s →
      Run exec Guard s₀ (calls ++ replay exec is s) (replayState exec is s) := by
  induction is with
  | nil =>
    intro calls s h _
    simpa [replay, replayState] using h
  | cons i is ih =>
    intro calls s h hr
    obtain ⟨hg, hok, hrest⟩ := hr
    have := ih (.snoc i h hg (Outcome.returned_iff.1 hok)) hrest
    simpa [replay, replayState] using this

/-- **The inputs give a run** when each of their calls is allowed and returns. -/
theorem run_replay {exec : ι → Act δ ε σ Unit}
    {Guard : List (Call ι δ ε σ) → Call ι δ ε σ → Prop} {s₀ : σ} (is : List ι)
    (h : Replays exec Guard [] is s₀) :
    Run exec Guard s₀ (replay exec is s₀) (replayState exec is s₀) := by
  have := Run.append is .nil h
  rwa [List.nil_append] at this

end Cannet.Foundations
