import Cannet.Foundations.Threads

/-!
# Monitors

A mutex guards a value, and threads wait on a condition variable until the value satisfies a
predicate. A critical section is one step. A thread that waits tests the predicate each time it
takes the mutex, and blocks while it does not hold; it is woken by a notification, or by nothing at
all.

`Monitor.Heeded p m` says that no thread is blocked once `p` holds. An update keeps it that makes
`p` true for nobody but those it notifies (`Heeded.update`, `Heeded.notifyAll`), and so does
everything that waiting threads do.
-/

namespace Cannet.Foundations

/-- Where a thread is with a condition variable. -/
inductive Waiter
  | outside
  | blocked
  /-- It is to take the mutex again. -/
  | woken
  deriving DecidableEq, Repr

structure Monitor (κ σ : Type) where
  guarded : σ
  waiter : κ → Waiter

namespace Monitor

variable {κ σ φ ε : Type} {p : σ → Prop}

/-- A value that nobody waits for. -/
def init (v : σ) : Monitor κ σ := ⟨v, fun _ => .outside⟩

/-- The critical section of an update. -/
def update (f : σ → σ) (m : Monitor κ σ) : Monitor κ σ := { m with guarded := f m.guarded }

/-- `notify_all`. -/
def notifyAll (m : Monitor κ σ) : Monitor κ σ :=
  { m with waiter := fun c => if m.waiter c = .blocked then .woken else m.waiter c }

section Waiting

variable [DecidableEq κ]

def setWaiter (c : κ) (w : Waiter) (m : Monitor κ σ) : Monitor κ σ :=
  { m with waiter := Function.update m.waiter c w }

/-- A thread takes the mutex. Whether it goes on: if not, it blocks. -/
def wait (p : σ → Prop) [DecidablePred p] (c : κ) : Step φ ε (Monitor κ σ) Bool := do
  let m ← Act.get
  if m.waiter c = .blocked then Act.abort .waits
  else if p m.guarded then
    Act.modify (setWaiter c .outside)
    pure true
  else
    Act.modify (setWaiter c .blocked)
    pure false

/-- A spurious wakeup. -/
def wakeUp (c : κ) : Step φ ε (Monitor κ σ) Unit :=
  Act.await (fun m => m.waiter c = .blocked) (Act.modify (setWaiter c .woken))

end Waiting

/-- Nobody is blocked once `p` holds. -/
def Heeded (p : σ → Prop) (m : Monitor κ σ) : Prop := p m.guarded → ∀ c, m.waiter c ≠ .blocked

theorem init_heeded (v : σ) : Heeded p (init v : Monitor κ σ) := fun _ _ => nofun

namespace Heeded

variable {m : Monitor κ σ} {c : κ} {w : Waiter}

/-- An update that does not make `p` true. -/
theorem update {f : σ → σ} (h : m.Heeded p) (hf : p (f m.guarded) → p m.guarded) :
    (m.update f).Heeded p := fun hp => h (hf hp)

/-- Those who are notified are not blocked. -/
theorem notifyAll (m : Monitor κ σ) : m.notifyAll.Heeded p := by
  intro _ c
  show (if m.waiter c = .blocked then Waiter.woken else m.waiter c) ≠ .blocked
  split
  · nofun
  · assumption

variable [DecidableEq κ]

theorem setWaiter (h : m.Heeded p) (hw : w = .blocked → ¬p m.guarded) :
    (m.setWaiter c w).Heeded p := by
  intro hp d
  show Function.update m.waiter c w d ≠ .blocked
  by_cases hd : d = c
  · rw [hd, Function.update_self]
    exact fun hblocked => hw hblocked hp
  · rw [Function.update_of_ne hd]
    exact h hp d

end Heeded

section Waiting

variable [DecidableEq κ] [DecidablePred p] {m : Monitor κ σ} {c : κ}

/-- **A thread goes on** when `p` holds. -/
theorem wait_pos (hc : m.waiter c ≠ .blocked) (hp : p m.guarded) :
    (wait p c m : Outcome (Halt φ) ε _ _) = ⟨.ok true, m.setWaiter c .outside, []⟩ := by
  rw [wait, Act.get_bind, if_neg hc, if_pos hp]
  rfl

/-- It blocks when `p` does not. -/
theorem wait_neg (hc : m.waiter c ≠ .blocked) (hp : ¬p m.guarded) :
    (wait p c m : Outcome (Halt φ) ε _ _) = ⟨.ok false, m.setWaiter c .blocked, []⟩ := by
  rw [wait, Act.get_bind, if_neg hc, if_neg hp]
  rfl

theorem wait_blocked (hc : m.waiter c = .blocked) :
    (wait p c m : Outcome (Halt φ) ε _ _) = ⟨.error .waits, m, []⟩ := by
  rw [wait, Act.get_bind, if_pos hc]
  rfl

omit [DecidablePred p] in
theorem wakeUp_ok (h : (wakeUp c m : Outcome (Halt φ) ε _ _).val = .ok ()) :
    m.waiter c = .blocked ∧
      (wakeUp c m : Outcome (Halt φ) ε _ _) = ⟨.ok (), m.setWaiter c .woken, []⟩ := by
  have hc : m.waiter c = .blocked := (Act.await_ok h).1
  exact ⟨hc, Act.await_pos (p := fun m : Monitor κ σ => m.waiter c = .blocked) hc⟩

/-- **What a thread that waits does** when it has the mutex. -/
theorem wait_ok {b : Bool} (h : (wait p c m : Outcome (Halt φ) ε _ _).val = .ok b) :
    m.waiter c ≠ .blocked ∧ (b = true ↔ p m.guarded) ∧
      (wait p c m : Outcome (Halt φ) ε _ _) =
        ⟨.ok b, m.setWaiter c (if b then .outside else .blocked), []⟩ := by
  by_cases hc : m.waiter c = .blocked
  · rw [wait_blocked hc] at h
    cases h
  · by_cases hp : p m.guarded
    · rw [wait_pos hc hp] at h ⊢
      cases h
      exact ⟨hc, iff_of_true rfl hp, rfl⟩
    · rw [wait_neg hc hp] at h ⊢
      cases h
      exact ⟨hc, iff_of_false Bool.false_ne_true hp, rfl⟩

/-- A thread that is not blocked gets the mutex. -/
theorem wait_returns (hc : m.waiter c ≠ .blocked) :
    ∃ b, (wait p c m : Outcome (Halt φ) ε _ _).val = .ok b := by
  by_cases hp : p m.guarded
  · exact ⟨true, by rw [wait_pos hc hp]⟩
  · exact ⟨false, by rw [wait_neg hc hp]⟩

omit [DecidablePred p] in
theorem wakeUp_not_fails (fault : φ) :
    (wakeUp c m : Outcome (Halt φ) ε _ _).val ≠ .error (.fails fault) :=
  Act.await_modify_not_fails _ fault

theorem wait_not_fails (fault : φ) :
    (wait p c m : Outcome (Halt φ) ε _ _).val ≠ .error (.fails fault) := by
  by_cases hc : m.waiter c = .blocked
  · rw [wait_blocked hc]
    nofun
  · by_cases hp : p m.guarded
    · rw [wait_pos hc hp]
      nofun
    · rw [wait_neg hc hp]
      nofun

end Waiting

end Monitor

end Cannet.Foundations
