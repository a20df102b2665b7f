import Cannet.Foundations.Store
import Cannet.Foundations.Threads

/-!
# The queue with two locks

`ThreadSafeQueue` is a list of nodes that ends in an unused one, `*tail_`. A producer fills that
node and links a new one behind it, under `tailMutex_`; a consumer removes the first node, under
`headMutex_`, which it takes `tailMutex_` inside of only to read `tail_`.

The threads take turns. A critical section of `tailMutex_` is one step: a push, or a read of
`tail_`. A consumer takes the other steps of its critical section one at a time, and others may
push between them. What a consumer does with a node that it has removed concerns nobody else.
-/

namespace Cannet.Base

open Foundations

variable {α κ : Type}

/-- The ways a step of the queue ends the process. -/
inductive QueueFault
  | absentNode
  | absentValue
  deriving DecidableEq, Repr

structure Node (α : Type) where
  val : Option α
  next : Option ℕ

/-- Which of the four functions that pop is called: `waitAndPop` or `tryPop`, with or without a
parameter that the value is moved to. The last, `bool tryPop(T &)`, returns its `unique_ptr` as a
`bool` and does not compile where it is instantiated; it is an extra case here. -/
structure Pop where
  waits : Bool
  moves : Bool
  deriving DecidableEq, Repr

/-- Where a consumer is. -/
inductive Consumer (α : Type)
  | idle
  /-- It holds `headMutex_` and is about to compare `head_` with `getTail()`. -/
  | locked (p : Pop)
  /-- It holds `headMutex_`; the predicate was false and it is about to block. -/
  | gap (p : Pop)
  /-- It is blocked on `cv_`. -/
  | blocked (p : Pop)
  /-- It is to take `headMutex_` again. -/
  | woken (p : Pop)
  /-- It holds `headMutex_`; the queue was not empty. -/
  | found (p : Pop)
  /-- It holds `headMutex_` and has moved the value out. -/
  | moved (val : α)
  deriving DecidableEq, Repr

/-- What the threads do that others see. -/
inductive QueueEvent (α : Type)
  | pushed (x : α)
  /-- A node with this value was removed. -/
  | popped (val : Option α)
  /-- `tryPop` returned with nothing. -/
  | empty
  deriving DecidableEq, Repr

structure ThreadSafeQueue (α κ : Type) where
  heap : Store (Node α)
  head : Option ℕ
  tail : ℕ
  headMutex : Option κ
  /-- The threads that are blocked on `cv_`. -/
  waiters : List κ
  /-- The number of pushes that have `cv_.notify_one()` still to do. -/
  notifies : ℕ
  consumer : κ → Consumer α

abbrev QueueAct (α κ : Type) := Step QueueFault (QueueEvent α) (ThreadSafeQueue α κ)

namespace ThreadSafeQueue

/-- The constructor. -/
def init : ThreadSafeQueue α κ where
  heap := ⟨1, fun _ => ⟨none, none⟩⟩
  head := some 0
  tail := 0
  headMutex := none
  waiters := []
  notifies := 0
  consumer := fun _ => .idle

def val (s : ThreadSafeQueue α κ) (i : ℕ) : Option α := (s.heap.get i).val

def next (s : ThreadSafeQueue α κ) (i : ℕ) : Option ℕ := (s.heap.get i).next

/-! ## Producers -/

/-- The critical section of `push`. -/
def pushed (x : α) (s : ThreadSafeQueue α κ) : ThreadSafeQueue α κ :=
  { s with
    heap := (s.heap.alloc ⟨none, none⟩).set s.tail ⟨some x, some s.heap.made⟩
    tail := s.heap.made
    notifies := s.notifies + 1 }

def push (x : α) : QueueAct α κ Unit := do
  Act.modify (pushed x)
  Act.emit (.pushed x)

section Consumers

variable [DecidableEq κ]

def setConsumer (c : κ) (state : Consumer α) : QueueAct α κ Unit :=
  Act.modify fun s => { s with consumer := Function.update s.consumer c state }

/-- The thread that a notification wakes: one of those that are blocked, if there are any. -/
def Notifiable (woken : Option κ) (s : ThreadSafeQueue α κ) : Prop :=
  0 < s.notifies ∧ match woken with
    | some c => c ∈ s.waiters
    | none => s.waiters = []

instance (woken : Option κ) : DecidablePred (Notifiable (α := α) woken) := fun s =>
  match woken with
  | some c => inferInstanceAs (Decidable (0 < s.notifies ∧ c ∈ s.waiters))
  | none => inferInstanceAs (Decidable (0 < s.notifies ∧ s.waiters = []))

/-- A thread leaves `cv_`. -/
def wakeUp (c : κ) : QueueAct α κ Unit := do
  let s ← Act.get
  match s.consumer c with
  | .blocked p => do
    Act.modify fun s => { s with waiters := s.waiters.filter (· ≠ c) }
    setConsumer c (.woken p)
  | _ => Act.abort .waits

def wakeOne : Option κ → QueueAct α κ Unit
  | some c => wakeUp c
  | none => pure ()

/-- `cv_.notify_one()`, at the end of `push`. -/
def notifyOne (woken : Option κ) : QueueAct α κ Unit :=
  Act.await (Notifiable woken) do
    Act.modify fun s => { s with notifies := s.notifies - 1 }
    wakeOne woken

/-! ## Consumers -/

/-- A consumer calls one of the functions, and takes `headMutex_`. -/
def lock (c : κ) (p : Pop) : QueueAct α κ Unit := do
  let s ← Act.get
  match s.consumer c, s.headMutex with
  | .idle, none => do
    Act.modify fun s => { s with headMutex := some c }
    setConsumer c (.locked p)
  | _, _ => Act.abort .waits

/-- A consumer that was blocked takes `headMutex_` again. -/
def relock (c : κ) : QueueAct α κ Unit := do
  let s ← Act.get
  match s.consumer c, s.headMutex with
  | .woken p, none => do
    Act.modify fun s => { s with headMutex := some c }
    setConsumer c (.locked p)
  | _, _ => Act.abort .waits

def unlock : QueueAct α κ Unit := Act.modify fun s => { s with headMutex := none }

/-- `head_.get() == getTail()`: the predicate of `waitForData`, and the test of `tryPopHead`. -/
def compare (c : κ) : QueueAct α κ Unit := do
  let s ← Act.get
  match s.consumer c with
  | .locked p =>
    if s.head = some s.tail then
      if p.waits then setConsumer c (.gap p)
      else do
        unlock
        setConsumer c .idle
        Act.emit .empty
    else setConsumer c (.found p)
  | _ => Act.abort .waits

/-- `cv_.wait` releases `headMutex_` and blocks. -/
def block (c : κ) : QueueAct α κ Unit := do
  let s ← Act.get
  match s.consumer c with
  | .gap p => do
    unlock
    Act.modify fun s => { s with waiters := s.waiters ++ [c] }
    setConsumer c (.blocked p)
  | _ => Act.abort .waits

/-- `x = std::move(*head_->val_)`. The thread removes the node next. -/
def moveOut (c : κ) : QueueAct α κ Unit := do
  let s ← Act.get
  match s.consumer c with
  | .found ⟨_, true⟩ => do
    let i ← Act.need (.fails .absentNode) s.head
    let x ← Act.need (.fails .absentValue) (s.val i)
    setConsumer c (.moved x)
  | _ => Act.abort .waits

/-- `popHead`. -/
def removeHead : QueueAct α κ ℕ := do
  let s ← Act.get
  let i ← Act.need (.fails .absentNode) s.head
  Act.modify fun s => { s with heap := s.heap.set i ⟨s.val i, none⟩, head := s.next i }
  pure i

/-- `popHead`, the end of the critical section, and the value if it was not moved before. -/
def popHead (c : κ) : QueueAct α κ Unit := do
  let s ← Act.get
  match s.consumer c with
  | .moved x => do
    let _ ← removeHead
    unlock
    setConsumer c .idle
    Act.emit (.popped (some x))
  | .found ⟨_, false⟩ => do
    let i ← removeHead
    unlock
    setConsumer c .idle
    Act.emit (.popped (s.val i))
  | _ => Act.abort .waits

end Consumers

end ThreadSafeQueue

/-! ## Steps -/

inductive QueueOp (α κ : Type)
  | push (x : α)
  | notifyOne (woken : Option κ)
  | lock (c : κ) (p : Pop)
  | compare (c : κ)
  | block (c : κ)
  /-- A spurious wakeup. -/
  | wakeUp (c : κ)
  | relock (c : κ)
  | moveOut (c : κ)
  | popHead (c : κ)

variable [DecidableEq κ]

def QueueOp.exec : QueueOp α κ → QueueAct α κ Unit
  | push x => ThreadSafeQueue.push x
  | notifyOne woken => ThreadSafeQueue.notifyOne woken
  | lock c p => ThreadSafeQueue.lock c p
  | compare c => ThreadSafeQueue.compare c
  | block c => ThreadSafeQueue.block c
  | wakeUp c => ThreadSafeQueue.wakeUp c
  | relock c => ThreadSafeQueue.relock c
  | moveOut c => ThreadSafeQueue.moveOut c
  | popHead c => ThreadSafeQueue.popHead c

/-- A step of a run. -/
abbrev QueueCall (α κ : Type) :=
  Call (QueueOp α κ) (Halt QueueFault) (QueueEvent α) (ThreadSafeQueue α κ)

end Cannet.Base
