import Cannet.Base.ThreadSafeQueue

/-!
# A pool of threads that run tasks

`ThreadPool` after `start`: its workers in `runInThread`, and one call of `stop()`, with
`notify_all` and `empty` of the queue of tasks, that it makes. The threads of the queue are the
workers and the thread that calls `stop()`, which is `none`. Each access to `running_` is one step.
What the tasks and `threadInitCallback_` do is not looked at; a task may be added at any time, by
anybody.
-/

namespace Cannet.Base

open Foundations

variable {τ κ : Type}

/-- Where a worker is in `runInThread`. -/
inductive Worker (τ : Type)
  /-- It is to call `threadInitCallback_`. -/
  | starting
  /-- It is to test `running_`. -/
  | testing
  /-- It is in `waitAndPop`. -/
  | waiting
  | popped (task : τ)
  | returned
  deriving DecidableEq, Repr

/-- Where the call of `stop()` is. -/
inductive StopCall
  | idle
  /-- `running_` is false; `notify_all` is to take `headMutex_`. -/
  | stored
  /-- It holds `headMutex_`, and `empty` is to take it. -/
  | emptying
  /-- `empty` has taken `headMutex_`. -/
  | comparing
  /-- `empty` has returned. -/
  | emptied (empty : Bool)
  | returned
  deriving DecidableEq, Repr

structure ThreadPool (τ κ : Type) where
  running : Bool
  taskQueue : ThreadSafeQueue τ (Option κ)
  worker : κ → Worker τ
  stopper : StopCall

abbrev PoolAct (τ κ : Type) := Step QueueFault (QueueEvent τ) (ThreadPool τ κ)

namespace ThreadSafeQueue

/-- `empty` takes `headMutex_`. -/
def lockEmpty (c : κ) : QueueAct τ κ Unit :=
  Act.await (·.headMutex = none) (Act.modify fun s => { s with headMutex := some c })

/-- `cv_.notify_all()`. -/
def notifyAll [DecidableEq κ] : QueueAct τ κ Unit := do
  let s ← Act.get
  s.waiters.forM wakeUp

end ThreadSafeQueue

namespace ThreadPool

/-- The pool after `start`, with one thread for each `k : κ`. -/
def start : ThreadPool τ κ where
  running := true
  taskQueue := .init
  worker _ := .starting
  stopper := .idle

/-- A call on the queue of tasks. -/
def onQueue (x : QueueAct τ (Option κ) Unit) : PoolAct τ κ Unit :=
  Act.zoom (·.taskQueue) (fun q s => { s with taskQueue := q }) x

def setStopper (state : StopCall) : PoolAct τ κ Unit :=
  Act.modify fun s => { s with stopper := state }

variable [DecidableEq κ]

def setWorker (k : κ) (state : Worker τ) : PoolAct τ κ Unit :=
  Act.modify fun s => { s with worker := Function.update s.worker k state }

/-! ## Workers -/

def initCallback (k : κ) : PoolAct τ κ Unit := do
  let s ← Act.get
  match s.worker k with
  | .starting => setWorker k .testing
  | _ => Act.abort .waits

/-- `while (running_)`. -/
def test (k : κ) : PoolAct τ κ Unit := do
  let s ← Act.get
  match s.worker k with
  | .testing => if s.running then setWorker k .waiting else setWorker k .returned
  | _ => Act.abort .waits

/-- `waitAndPop(task)` takes `headMutex_`. -/
def lock (k : κ) : PoolAct τ κ Unit := do
  let s ← Act.get
  match s.worker k with
  | .waiting => onQueue (ThreadSafeQueue.lock (some k) ⟨true, true⟩)
  | _ => Act.abort .waits

/-- `waitAndPop(task)` removes the node whose value it has moved to `task`, and returns. -/
def popHead (k : κ) : PoolAct τ κ Unit := do
  let s ← Act.get
  match s.taskQueue.consumer (some k) with
  | .moved task => do
    onQueue (ThreadSafeQueue.popHead (some k))
    setWorker k (.popped task)
  | _ => Act.abort .waits

/-- `if (task) task()`. -/
def runTask (k : κ) : PoolAct τ κ Unit := do
  let s ← Act.get
  match s.worker k with
  | .popped _ => setWorker k .testing
  | _ => Act.abort .waits

/-! ## `stop()` -/

/-- `running_ = false`. -/
def store : PoolAct τ κ Unit := do
  let s ← Act.get
  match s.stopper with
  | .idle => do
    Act.modify fun s => { s with running := false }
    setStopper .stored
  | _ => Act.abort .waits

/-- `notify_all` takes `headMutex_`, as a consumer does. -/
def lockHead : PoolAct τ κ Unit := do
  let s ← Act.get
  match s.stopper with
  | .stored => do
    onQueue (ThreadSafeQueue.lock none ⟨false, false⟩)
    setStopper .emptying
  | _ => Act.abort .waits

/-- `empty`, called by `notify_all`, takes `headMutex_`, which waits until nobody has it. -/
def lockEmpty : PoolAct τ κ Unit := do
  let s ← Act.get
  match s.stopper with
  | .emptying => do
    onQueue (ThreadSafeQueue.lockEmpty none)
    setStopper .comparing
  | _ => Act.abort .waits

/-- `head_.get() == getTail()`, and the end of `empty`. -/
def compareEmpty : PoolAct τ κ Unit := do
  let s ← Act.get
  match s.stopper with
  | .comparing => do
    onQueue ThreadSafeQueue.unlock
    setStopper (.emptied (s.taskQueue.head = some s.taskQueue.tail))
  | _ => Act.abort .waits

/-- The rest of `notify_all`, and of `stop()`. -/
def notifyAll : PoolAct τ κ Unit := do
  let s ← Act.get
  match s.stopper with
  | .emptied empty => do
    if empty then
      onQueue ThreadSafeQueue.notifyAll
    onQueue ThreadSafeQueue.unlock
    onQueue (ThreadSafeQueue.setConsumer none .idle)
    setStopper .returned
  | _ => Act.abort .waits

end ThreadPool

/-! ## Steps -/

/-- The steps of a worker in `waitAndPop` that concern the queue only. -/
inductive WaitStep
  | compare
  | block
  /-- A spurious wakeup. -/
  | wakeUp
  | relock
  | moveOut
  deriving DecidableEq, Repr

def WaitStep.op (c : κ) : WaitStep → QueueOp τ κ
  | compare => .compare c
  | block => .block c
  | wakeUp => .wakeUp c
  | relock => .relock c
  | moveOut => .moveOut c

inductive PoolOp (τ κ : Type)
  /-- `addTask`, up to `cv_.notify_one()`. -/
  | addTask (task : τ)
  | notifyOne (woken : Option κ)
  | initCallback (k : κ)
  | test (k : κ)
  | lock (k : κ)
  | wait (k : κ) (step : WaitStep)
  | popHead (k : κ)
  | runTask (k : κ)
  | store
  | lockHead
  | lockEmpty
  | compareEmpty
  | notifyAll

variable [DecidableEq κ]

def PoolOp.exec : PoolOp τ κ → PoolAct τ κ Unit
  | addTask task => ThreadPool.onQueue (ThreadSafeQueue.push task)
  | notifyOne woken => ThreadPool.onQueue (ThreadSafeQueue.notifyOne (woken.map some))
  | initCallback k => ThreadPool.initCallback k
  | test k => ThreadPool.test k
  | lock k => ThreadPool.lock k
  | wait k step => ThreadPool.onQueue (step.op (some k)).exec
  | popHead k => ThreadPool.popHead k
  | runTask k => ThreadPool.runTask k
  | store => ThreadPool.store
  | lockHead => ThreadPool.lockHead
  | lockEmpty => ThreadPool.lockEmpty
  | compareEmpty => ThreadPool.compareEmpty
  | notifyAll => ThreadPool.notifyAll

/-- A step of a run. -/
abbrev PoolCall (τ κ : Type) := Call (PoolOp τ κ) (Halt QueueFault) (QueueEvent τ) (ThreadPool τ κ)

/-- The step is one of a worker or of `stop()`, or the end of a push: not the start of a push, and
not a spurious wakeup. -/
def PoolOp.isOwn : PoolOp τ κ → Bool
  | addTask _ | wait _ .wakeUp => false
  | _ => true

/-- Every thread waits. -/
def ThreadPool.Stuck (s : ThreadPool τ κ) : Prop :=
  ∀ op : PoolOp τ κ, op.isOwn = true → (op.exec s).val = .error .waits

end Cannet.Base
