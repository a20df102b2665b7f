import Cannet.Net.Channel
import Cannet.Net.Timer.Runs

/-!
# Handles of timers

`TimerManager::addTimer` and `cancel` of `net/TimerManager.cpp`, with `EventLoop::runInLoop` and
`queueInLoop`, and `runAt`, `runEvery`, `runAfter` of `net/EventLoop.cpp`, which pass their clock
readings on to it. A timer object is named by its `seq_`; a pointer to one is null or its name.

`addTimer` gives a copy of its pointer to the functor that inserts the timer, on the loop's thread
called at once and on another thread queued, and then asserts that its own pointer is null. A copy
leaves its origin alone: the assertion fails on either thread, with the timer in the queue or in
the functor, and no handle is ever returned (`addTimer_never_returns`).
-/

namespace Cannet.Net

open Foundations

/-- A `std::shared_ptr<Timer>`, or what a `std::weak_ptr<Timer>` was made from. -/
abbrev TimerPtr := Option ℕ

/-- A functor of the timers in the queue of the loop, with the pointer it holds. -/
inductive TimerFunctor
  | addTimerInLoop (timer : TimerPtr)
  | cancelInLoop (timeId : TimerPtr)
  deriving DecidableEq, Repr

inductive HandleEffect
  | timers (e : TimerEffect)
  | wakeup
  deriving DecidableEq, Repr

/-- The timers of a loop with its functors. -/
structure LoopTimers where
  manager : TimerManager
  /-- `Timer::sTimerNum_`. -/
  sTimerNum : ℕ
  functors : List TimerFunctor

abbrev HandleAct (α : Type) := Act Abort HandleEffect LoopTimers α

namespace LoopTimers

/-- A call on the timers. -/
def onTimers {α : Type} (x : TimerAct α) : HandleAct α := fun s =>
  let o := x s.manager
  ⟨match o.val with
    | .ok a => .ok a
    | .error e => e.elim, { s with manager := o.state }, o.trace.map .timers⟩

/-- A functor, called. -/
def callFunctor (clock : Int64) : TimerFunctor → HandleAct Unit
  | .addTimerInLoop timer => do
    let seq ← Act.need .nullDereference timer
    onTimers (TimerManager.addTimerInLoop seq clock)
  | .cancelInLoop none => pure ()
  | .cancelInLoop (some seq) => onTimers (TimerManager.cancelInLoop seq)

/-- From another thread than the loop's. -/
def queueInLoop (cb : TimerFunctor) : HandleAct Unit := do
  Act.modify fun s => { s with functors := s.functors ++ [cb] }
  Act.emit .wakeup

def runInLoop (inLoopThread : Bool) (clock : Int64) (cb : TimerFunctor) : HandleAct Unit :=
  if inLoopThread then callFunctor clock cb else queueInLoop cb

/-- `std::make_shared<Timer>`. -/
def makeTimer (expiration interval : Int64) : HandleAct TimerPtr := do
  let s ← Act.get
  Act.modify fun s =>
    { s with
      manager := { s.manager with
        timer := Function.update s.manager.timer s.sTimerNum ⟨expiration, interval, false⟩ }
      sTimerNum := s.sTimerNum + 1 }
  pure (some s.sTimerNum)

def addTimer (inLoopThread : Bool) (clock expiration interval : Int64) : HandleAct TimerPtr := do
  let timer ← makeTimer expiration interval
  -- the functor captures a copy
  runInLoop inLoopThread clock (.addTimerInLoop timer)
  Act.check .assertion (timer = none)
  pure timer

def cancel (inLoopThread : Bool) (clock : Int64) (timeId : TimerPtr) : HandleAct Unit :=
  runInLoop inLoopThread clock (.cancelInLoop timeId)

/-- The reading `now` is taken before, `clock` when the timerfd is armed. -/
def runAt (inLoopThread : Bool) (clock time : Int64) : HandleAct TimerPtr :=
  addTimer inLoopThread clock time 0

def runEvery (inLoopThread : Bool) (now clock interval : Int64) : HandleAct TimerPtr :=
  addTimer inLoopThread clock (now + interval) interval

def runAfter (inLoopThread : Bool) (now clock delay : Int64) : HandleAct TimerPtr :=
  addTimer inLoopThread clock (now + delay) 0

/-- Somebody owns the timer: the queue, or a functor that will insert it. -/
def Owned (s : LoopTimers) (seq : ℕ) : Prop :=
  seq ∈ s.manager.timers ∨ .addTimerInLoop (some seq) ∈ s.functors

instance (s : LoopTimers) (seq : ℕ) : Decidable (s.Owned seq) :=
  inferInstanceAs (Decidable (_ ∨ _))

end LoopTimers

/-- What a call that adds the timer `seq` is to leave behind: a handle of this timer, which is
owned, and with which it can be cancelled as long as it is in the queue. -/
def UsableHandle (seq : ℕ) (o : Outcome Abort HandleEffect LoopTimers TimerPtr) : Prop :=
  o.val = .ok (some seq) ∧ o.state.Owned seq ∧
    ∀ calls m, Run TimerOp.exec UniqueSeq o.state.manager calls m → seq ∈ m.timers →
      ∀ calls' m', Run TimerOp.exec UniqueSeq (TimerManager.cancelInLoop seq m).state calls' m' →
        .run seq ∉ traceOf calls'

/-- The ways to add a timer. -/
inductive AddRequest
  | addTimer (clock expiration interval : Int64)
  | runAt (clock time : Int64)
  | runEvery (now clock interval : Int64)
  | runAfter (now clock delay : Int64)
  deriving DecidableEq

namespace AddRequest

def exec (inLoopThread : Bool) : AddRequest → HandleAct TimerPtr
  | addTimer clock expiration interval =>
    LoopTimers.addTimer inLoopThread clock expiration interval
  | runAt clock time => LoopTimers.runAt inLoopThread clock time
  | runEvery now clock interval => LoopTimers.runEvery inLoopThread now clock interval
  | runAfter now clock delay => LoopTimers.runAfter inLoopThread now clock delay

end AddRequest

namespace LoopTimers

variable (s : LoopTimers)

/-- The state when a timer has been made. -/
def made (expiration interval : Int64) : LoopTimers :=
  { s with
    manager := { s.manager with
      timer := Function.update s.manager.timer s.sTimerNum ⟨expiration, interval, false⟩ }
    sTimerNum := s.sTimerNum + 1 }

theorem makeTimer_apply (expiration interval : Int64) :
    makeTimer expiration interval s =
      ⟨.ok (some s.sTimerNum), s.made expiration interval, []⟩ := rfl

/-- **Handing the timer over** to the loop leaves it in the queue, or in a functor. -/
theorem runInLoop_owned (inLoopThread : Bool) (clock : Int64) (seq : ℕ) :
    ∃ s' es, runInLoop inLoopThread clock (.addTimerInLoop (some seq)) s = ⟨.ok (), s', es⟩ ∧
      (∀ t, s'.manager.timer t = s.manager.timer t) ∧
      if inLoopThread then s'.manager.timers.Perm (seq :: s.manager.timers) ∧
        s'.functors = s.functors
      else s'.manager = s.manager ∧ s'.functors = s.functors ++ [.addTimerInLoop (some seq)] := by
  cases inLoopThread with
  | false => exact ⟨_, _, rfl, fun _ => rfl, rfl, rfl⟩
  | true =>
    obtain ⟨m, hm, hafter⟩ := s.manager.addTimerInLoop_spec seq clock
    refine ⟨{ s with manager := m }, [.timers (.addTimerInLoop seq)], ?_, ?_, hafter.timers, rfl⟩
    · rw [runInLoop, if_pos rfl, callFunctor, Act.need_some, Act.pure_bind]
      simp only [onTimers, hm]
      rfl
    · intro t
      show m.timer t = _
      rw [hafter.timer t]
      simp

/-- **`addTimer` fails its assertion**, with the timer made and handed over. -/
theorem addTimer_apply (inLoopThread : Bool) (clock expiration interval : Int64) :
    ∃ s' es, addTimer inLoopThread clock expiration interval s = ⟨.error .assertion, s', es⟩ ∧
      s'.manager.timer s.sTimerNum = ⟨expiration, interval, false⟩ ∧ s'.Owned s.sTimerNum := by
  obtain ⟨s', es, hrun, htimer, howner⟩ :=
    (s.made expiration interval).runInLoop_owned inLoopThread clock s.sTimerNum
  have hnull : ¬(some s.sTimerNum : TimerPtr) = none := by simp
  refine ⟨s', es ++ [], ?_, ?_, ?_⟩
  · rw [addTimer, Act.bind_ok (s.makeTimer_apply expiration interval), Act.bind_ok hrun,
      Act.check_neg _ hnull]
    rfl
  · rw [htimer]
    exact Function.update_self _ _ _
  · cases inLoopThread with
    | true =>
      obtain ⟨hperm, -⟩ := howner
      exact .inl (hperm.mem_iff.2 List.mem_cons_self)
    | false =>
      obtain ⟨-, hfunctors⟩ := howner
      refine .inr ?_
      rw [hfunctors]
      exact List.mem_append_right _ (List.mem_singleton.2 rfl)

end LoopTimers

/-- **No handle of a timer is ever returned**, on the loop's thread or on another: whichever way a
timer is added, with whatever times and in whatever state of the timers, the assertion of
`addTimer` fails, although the timer is owned by then. -/
theorem addTimer_never_returns (s : LoopTimers) (inLoopThread : Bool) (r : AddRequest) :
    ¬UsableHandle s.sTimerNum (r.exec inLoopThread s) ∧
      (r.exec inLoopThread s).val = .error .assertion ∧
      (r.exec inLoopThread s).state.Owned s.sTimerNum := by
  obtain ⟨clock, expiration, interval, hr⟩ : ∃ clock expiration interval,
      r.exec inLoopThread = LoopTimers.addTimer inLoopThread clock expiration interval := by
    cases r with
    | addTimer clock expiration interval => exact ⟨_, _, _, rfl⟩
    | runAt clock time => exact ⟨_, _, _, rfl⟩
    | runEvery now clock interval => exact ⟨_, _, _, rfl⟩
    | runAfter now clock delay => exact ⟨_, _, _, rfl⟩
  obtain ⟨s', es, hadd, -, howned⟩ := s.addTimer_apply inLoopThread clock expiration interval
  rw [hr, hadd]
  refine ⟨?_, rfl, howned⟩
  rintro ⟨hval, -⟩
  cases hval

/-- The first timer of a loop, added on its own thread to run after a second. -/
theorem runAfter_fails :
    ¬UsableHandle 0 ((AddRequest.runAfter 0 0 1000000000).exec true
      ⟨TimerManager.start fun _ => ⟨0, 0, false⟩, 0, []⟩) := by
  rintro ⟨hval, -⟩
  revert hval
  decide

end Cannet.Net
