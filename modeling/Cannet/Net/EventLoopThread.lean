import Cannet.Base.Latch
import Cannet.Net.EventLoopThreadPool
import Cannet.Net.Wakeup

/-!
# Starting the threads of a pool

`EventLoopThreadPool::start` makes its threads one after another: `Thread::start` waits on `latch_`
until the new thread has written `tid_`, and `startLoop` waits on `cond_` until `threadFunc` has
made its loop, run the initial callback on it and published it in `loop_`. The thread then runs
`loop()`, which anybody may stop who has the loop, and takes `loop_` back at its end.

The thread that calls `start`, the new threads and those that call the loops take their steps in any
order. A critical section is one step; what is in the loops is `LoopThread`.
-/

namespace Cannet.Net

open Foundations Base

variable {F T : Type}

/-- How far the thread of an `EventLoopThread` is. -/
inductive ThreadPlace
  /-- There is no thread yet. -/
  | unborn
  /-- In `runInThread`, before it writes `*tid`. -/
  | born
  /-- Before `latch->countDown()`. -/
  | numbered
  /-- In `threadFunc`, before it makes the loop. -/
  | counted
  /-- The loop is there, and says the rest. -/
  | inLoop
  /-- `loop_` is null again. -/
  | ended
  deriving DecidableEq, Repr

/-- An `EventLoopThread`, with its `thread_`. -/
structure EventLoopThread (F T : Type) where
  started : Bool
  tid : ℤ
  latch : Latch Unit
  /-- `loop_`, which `mutex_` guards; `cond_` is notified of it. -/
  shared : Monitor Unit (Option LoopPtr)
  place : ThreadPlace
  loop : LoopThread F T

/-- Where the thread is that calls `EventLoopThreadPool::start`. -/
inductive StartCall
  /-- At `i < numThreads_`. -/
  | testing
  /-- In `latch_.wait()`. -/
  | latched
  /-- At `assert(tid_ > 0)`. -/
  | asserting
  /-- In `cond_.wait(lock, ..)`. -/
  | waiting
  /-- At `return loop_`. -/
  | found
  | returned
  deriving DecidableEq, Repr

/-- A pool whose `start` has passed its assertions. -/
structure StartingPool (F T : Type) where
  numThreads : ℕ
  threads : ℕ → EventLoopThread F T
  loops : List (Option LoopPtr)
  starter : StartCall

/-- A step of a thread, and the number of the loop where it does what others see. -/
abbrev StartAct (F T α : Type) := Step Abort (ℕ × LoopEvent F) (StartingPool F T) α

namespace EventLoopThread

/-- A step on one of the pool's threads. -/
abbrev OwnAct (F T α : Type) := Step Abort (LoopEvent F) (EventLoopThread F T) α

/-- The constructor. -/
def init : EventLoopThread F T where
  started := false
  tid := 0
  latch := .init 1
  shared := .init none
  place := .unborn
  loop := .start

/-- `loop_ != nullptr`. -/
def Published (ptr : Option LoopPtr) : Prop := ptr ≠ none

instance : DecidablePred Published := fun _ => inferInstanceAs (Decidable (_ ≠ _))

def onLatch {α : Type} (x : Step Abort (LoopEvent F) (Latch Unit) α) : OwnAct F T α :=
  Act.zoom (·.latch) (fun latch t => { t with latch := latch }) x

def onShared {α : Type} (x : Step Abort (LoopEvent F) (Monitor Unit (Option LoopPtr)) α) :
    OwnAct F T α :=
  Act.zoom (·.shared) (fun shared t => { t with shared := shared }) x

def onLoop (x : LoopThread.ThreadStep F T Unit) : OwnAct F T Unit :=
  Act.zoom (·.loop) (fun loop t => { t with loop := loop }) x

/-- `Thread::start`, up to `latch_.wait()`; `startLoop` has made the same assertion. -/
def start : OwnAct F T Unit := do
  let t ← Act.get
  Act.check (.fails .assertion) (t.started = false)
  Act.modify fun t => { t with started := true, place := .born }

/-- `*tid = CurrentThread::tid()`. -/
def setTid (tid : ℤ) : OwnAct F T Unit :=
  Act.await (fun t => t.place = .born ∧ 0 < tid)
    (Act.modify fun t => { t with tid := tid, place := .numbered })

def countDown : OwnAct F T Unit :=
  Act.await (·.place = .numbered)
    (Act.modify fun t => { t with latch := t.latch.countDown, place := .counted })

/-- `EventLoop loop`. -/
def makeLoop : OwnAct F T Unit :=
  Act.await (·.place = .counted) (Act.modify fun t => { t with loop := .start, place := .inLoop })

/-- `loop_ = &loop` and `cond_.notify_one()`; no more than one thread waits on `cond_`. -/
def publish (ptr : LoopPtr) : OwnAct F T Unit :=
  Act.await (·.place = .inLoop) do
    onLoop LoopThread.publish
    Act.modify fun t => { t with shared := (t.shared.update fun _ => some ptr).notifyAll }

/-- A step of the loop's threads, after the loop is made. -/
def inLoop [DecidableEq T] (op : ThreadOp F T) : OwnAct F T Unit :=
  match op with
  | .publish => Act.abort .waits
  | op => Act.await (·.place = .inLoop) (onLoop op.exec)

/-- `loop_ = nullptr`, after `loop()` has returned. -/
def endLoop : OwnAct F T Unit :=
  Act.await (fun t => t.place = .inLoop ∧ t.loop.phase = .returned)
    (Act.modify fun t => { t with shared := t.shared.update fun _ => none, place := .ended })

end EventLoopThread

namespace StartingPool

/-- The pool when `start` begins its loop. -/
def init (numThreads : ℕ) : StartingPool F T where
  numThreads := numThreads
  threads _ := .init
  loops := []
  starter := .testing

/-- The number of the thread that is being started. -/
def current (s : StartingPool F T) : ℕ := s.loops.length

def onThread {α : Type} (i : ℕ) (x : EventLoopThread.OwnAct F T α) : StartAct F T α := fun s =>
  let o := x (s.threads i)
  ⟨o.val, { s with threads := Function.update s.threads i o.state }, o.trace.map (Prod.mk i)⟩

def setStarter (place : StartCall) : StartAct F T Unit :=
  Act.modify fun s => { s with starter := place }

/-- The next turn of the loop, up to `latch_.wait()`, or the end of `start`. -/
def startThread : StartAct F T Unit :=
  Act.await (·.starter = .testing) do
    let s ← Act.get
    if s.current < s.numThreads then
      onThread s.current EventLoopThread.start
      setStarter .latched
    else setStarter .returned

def waitLatch : StartAct F T Unit :=
  Act.await (·.starter = .latched) do
    let s ← Act.get
    if ← onThread s.current (EventLoopThread.onLatch (Latch.wait ())) then
      setStarter .asserting

def assertTid : StartAct F T Unit :=
  Act.await (·.starter = .asserting) do
    let s ← Act.get
    Act.check (.fails .assertion) (0 < (s.threads s.current).tid)
    setStarter .waiting

def waitLoop : StartAct F T Unit :=
  Act.await (·.starter = .waiting) do
    let s ← Act.get
    let found ← onThread s.current
      (EventLoopThread.onShared (Monitor.wait EventLoopThread.Published ()))
    if found then
      setStarter .found

/-- `return loop_`, without `mutex_`, and `loops_.push_back`. -/
def pushLoop : StartAct F T Unit :=
  Act.await (·.starter = .found) do
    Act.modify fun s => { s with loops := s.loops ++ [(s.threads s.current).shared.guarded] }
    setStarter .testing

/-- A spurious wakeup of `start`. -/
def wakeStarter : StartAct F T Unit := do
  let s ← Act.get
  match s.starter with
  | .latched => onThread s.current (EventLoopThread.onLatch (Monitor.wakeUp ()))
  | .waiting => onThread s.current (EventLoopThread.onShared (Monitor.wakeUp ()))
  | _ => Act.abort .waits

end StartingPool

/-! ## Steps -/

inductive StartOp (F T : Type)
  | startThread
  | waitLatch
  | assertTid
  | waitLoop
  | pushLoop
  | wakeStarter
  | setTid (i : ℕ) (tid : ℤ)
  | countDown (i : ℕ)
  | makeLoop (i : ℕ)
  | publish (i : ℕ)
  | inLoop (i : ℕ) (op : ThreadOp F T)
  | endLoop (i : ℕ)

variable [DecidableEq T]

def StartOp.exec : StartOp F T → StartAct F T Unit
  | startThread => StartingPool.startThread
  | waitLatch => StartingPool.waitLatch
  | assertTid => StartingPool.assertTid
  | waitLoop => StartingPool.waitLoop
  | pushLoop => StartingPool.pushLoop
  | wakeStarter => StartingPool.wakeStarter
  | setTid i tid => StartingPool.onThread i (EventLoopThread.setTid tid)
  | countDown i => StartingPool.onThread i EventLoopThread.countDown
  | makeLoop i => StartingPool.onThread i EventLoopThread.makeLoop
  | publish i => StartingPool.onThread i (EventLoopThread.publish (.thread i))
  | inLoop i op => StartingPool.onThread i (EventLoopThread.inLoop op)
  | endLoop i => StartingPool.onThread i EventLoopThread.endLoop

/-- A step of a run. -/
abbrev StartingCall (F T : Type) :=
  Call (StartOp F T) (Halt Abort) (ℕ × LoopEvent F) (StartingPool F T)

/-- The step is one that `start` may have to wait for: one of its own, or one of a new thread up to
where the loop is published, the end of a call that its initial callback makes included. -/
def StartOp.isOwn : StartOp F T → Bool
  | wakeStarter => false
  | inLoop _ (.queueInLoopEnd none) | inLoop _ (.quitEnd none) => true
  | inLoop _ _ => false
  | _ => true

/-- `start` and the new threads wait. -/
def StartingPool.Stuck (s : StartingPool F T) : Prop :=
  ∀ op : StartOp F T, op.isOwn = true → (op.exec s).val = .error .waits

end Cannet.Net
