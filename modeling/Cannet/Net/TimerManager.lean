import Cannet.Foundations.Run
import Mathlib.Data.Int.Notation
import Mathlib.Data.List.Sort
import Mathlib.Data.Nat.Notation

/-!
# Timers

`net/Timer.h`, `net/TimerManager.h` and `net/TimerManager.cpp`, function by function. Times are
nanoseconds in an `int64_t`, whose sums and differences wrap. A `Timer` object is named by its
`seq_`, which is unique; the objects, made or still to be made, are the map `timer`. `timers_` is
a `std::priority_queue` under `TimerCmp`: the list of what is in it, top first. The readings of
the clock are arguments. What the callback of a timer does to the timers is a list of actions, in
the order it makes them.

The timerfd is armed with one deadline or not at all; it is readable from its deadline on, and
reading it then disarms it. The deadline is the kernel's, and may lie past what an `int64_t` holds.
-/

namespace Cannet.Net

open Foundations

structure Timer where
  expiration : Int64
  interval : Int64
  isDelete : Bool
  deriving DecidableEq, Repr

/-- `repeat_`, which the constructor sets and nothing changes. -/
def Timer.isRepeat (t : Timer) : Bool := 0 < t.interval

def Timer.restart (now : Int64) (t : Timer) : Timer := { t with expiration := now + t.interval }

def Timer.setDelete (on : Bool) (t : Timer) : Timer := { t with isDelete := on }

/-- Whether `a` comes after `b` in the queue. -/
def TimerCmp (timer : ℕ → Timer) (a b : ℕ) : Bool :=
  if (timer a).expiration = (timer b).expiration then b < a
  else (timer b).expiration < (timer a).expiration

structure TimerManager where
  timer : ℕ → Timer
  timers : List ℕ
  /-- The deadline the timerfd is armed with. -/
  timerFd : Option ℤ

/-- What a callback does to the timers. -/
inductive TimerAction
  | addTimerInLoop (seq : ℕ) (clock : Int64)
  | cancelInLoop (seq : ℕ)
  deriving DecidableEq, Repr

/-- The entries into `addTimerInLoop` and `cancelInLoop`, and the callbacks run. -/
inductive TimerEffect
  | addTimerInLoop (seq : ℕ)
  | cancelInLoop (seq : ℕ)
  | run (seq : ℕ)
  deriving DecidableEq, Repr

/-- A call on the timers; none of them aborts. -/
abbrev TimerAct (α : Type) := Act Empty TimerEffect TimerManager α

/-- `timerfd_settime` with flags 0, at time `now`. -/
def timerfdSettime (now sec nsec : Int64) (armed : Option ℤ) : Option ℤ :=
  if sec < 0 ∨ nsec < 0 ∨ 999999999 < nsec then armed
  else if sec = 0 ∧ nsec = 0 then none
  else some (now.toInt + sec.toInt * 1000000000 + nsec.toInt)

namespace TimerManager

/-- Change the object named `seq`. -/
def setTimer (seq : ℕ) (f : Timer → Timer) (s : TimerManager) : TimerManager :=
  { s with timer := fun t => if t = seq then f (s.timer t) else s.timer t }

/-- `timers_.push`. -/
def push (seq : ℕ) (s : TimerManager) : TimerManager :=
  { s with timers := s.timers.orderedInsert (fun a b => TimerCmp s.timer a b = false) seq }

def readTimerFd (clock : Int64) : TimerAct Unit :=
  Act.modify fun s =>
    { s with timerFd := s.timerFd.filter fun deadline => clock.toInt < deadline }

/-- The seconds are a `duration_cast`, which like `%` truncates. -/
def resetTimerFd (expiration clock : Int64) : TimerAct Unit :=
  let nsec := expiration - clock
  let armed := timerfdSettime clock (nsec / 1000000000) (nsec % 1000000000)
  Act.modify fun s => { s with timerFd := armed s.timerFd }

def insert (seq : ℕ) : TimerAct Bool := do
  let s ← Act.get
  match s.timers with
  | top :: _ =>
    Act.modify (push seq)
    pure ((s.timer seq).expiration < (s.timer top).expiration)
  | [] =>
    Act.modify (push seq)
    pure true

def addTimerInLoop (seq : ℕ) (clock : Int64) : TimerAct Unit := do
  Act.emit (.addTimerInLoop seq)
  let earliestChanged ← insert seq
  if earliestChanged then
    let s ← Act.get
    resetTimerFd (s.timer seq).expiration clock

/-- The weak handle is of an object that may be gone, whose flag nothing reads any more. -/
def cancelInLoop (seq : ℕ) : TimerAct Unit := do
  Act.emit (.cancelInLoop seq)
  Act.modify (setTimer seq (Timer.setDelete true))

/-- The loop of `getExpired`, on the contents of `timers_`. -/
def getExpired (now : Int64) : List ℕ → TimerAct (List ℕ)
  | [] => pure []
  | top :: rest => do
    let s ← Act.get
    if (s.timer top).expiration ≤ now then
      Act.modify fun s => { s with timers := rest }
      let expired ← getExpired now rest
      pure (if (s.timer top).isDelete then expired else top :: expired)
    else
      pure []

def act : TimerAction → TimerAct Unit
  | .addTimerInLoop seq clock => addTimerInLoop seq clock
  | .cancelInLoop seq => cancelInLoop seq

/-- `key->run()`, with what its callback does. -/
def run (callback : ℕ → List TimerAction) (key : ℕ) : TimerAct Unit := do
  Act.emit (.run key)
  (callback key).forM act

/-- The loop of `handleRead`. -/
def runExpired (callback : ℕ → List TimerAction) (key : ℕ) : TimerAct Unit := do
  let s ← Act.get
  if ¬(s.timer key).isDelete then
    run callback key

/-- The first loop of `reset`. -/
def restartExpired (now : Int64) (key : ℕ) : TimerAct Unit := do
  let s ← Act.get
  if (s.timer key).isRepeat ∧ ¬(s.timer key).isDelete then
    Act.modify (setTimer key (Timer.restart now))
    let _ ← insert key

/-- The second loop of `reset`, on the contents of `timers_`. -/
def pruneAndRearm (clock : Int64) : List ℕ → TimerAct Unit
  | [] => pure ()
  | top :: rest => do
    let s ← Act.get
    if ¬(s.timer top).isDelete then
      resetTimerFd (s.timer top).expiration clock
    else
      Act.modify fun s => { s with timers := rest }
      pruneAndRearm clock rest

def reset (expired : List ℕ) (now clock : Int64) : TimerAct Unit := do
  expired.forM (restartExpired now)
  let s ← Act.get
  pruneAndRearm clock s.timers

/-- The readings of the clock: when the timerfd is read, `now`, and when it is armed again. -/
def handleRead (readClock now resetClock : Int64) (callback : ℕ → List TimerAction) :
    TimerAct Unit := do
  readTimerFd readClock
  let s ← Act.get
  let expired ← getExpired now s.timers
  expired.forM (runExpired callback)
  reset expired now resetClock

/-- The queue at the start, with the objects that will be made, each as its constructor leaves
it. -/
def start (timer : ℕ → Timer) : TimerManager := ⟨fun t => (timer t).setDelete false, [], none⟩

end TimerManager

end Cannet.Net
