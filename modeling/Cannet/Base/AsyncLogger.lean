import Cannet.Base.LogStream
import Cannet.Foundations.Store
import Cannet.Foundations.Threads

/-!
# The asynchronous logger

Any thread appends records to `currentBuffer_`, under `mutex_`; `AsyncLogger::threadFun`, the
writer, swaps the buffers that are filled for spare ones and writes them to the file. A buffer is
held through `shared_ptr`s, so the model has the buffers in a store and the pointers as references
to them.

The threads take turns. A critical section of `mutex_` is one step, a load or store of `running_`
is one, and so is what the writer does with its own buffers between two of these; a wait for
`cond_` ends at any time, by a notification or by its timeout. `AppendFile::append` writes all
bytes it is given.
-/

namespace Cannet.Base

open Foundations

/-- The ways a step of the logger ends the process. -/
inductive LoggerFault
  | assertion
  | nullDereference
  | outOfBounds
  deriving DecidableEq, Repr

/-- Where the writer is. -/
inductive Writer
  /-- The thread is not started. -/
  | none
  /-- At the start of `threadFun`. -/
  | starting
  /-- Past `latch_.countDown()`. -/
  | settingUp
  /-- At `while (running_)`. -/
  | testing
  /-- Before the critical section. -/
  | locking
  /-- In `wait_for`. -/
  | waiting
  /-- Past the critical section. -/
  | swapped
  /-- In the loop that writes, at the buffer with index `index`. -/
  | writing
  /-- `threadFun` has returned. -/
  | returned
  deriving DecidableEq, Repr

/-- Where the thread that calls `stop` is. -/
inductive Stopper
  | idle
  /-- In `thread_.join()`. -/
  | joining
  | returned
  deriving DecidableEq, Repr

/-- What the threads do that others see. -/
inductive LogEvent (β : Type)
  | appended (logline : List β)
  /-- The writer has taken the buffers with these bytes. -/
  | swapped (batch : List (List β))
  /-- The bytes went to the file. -/
  | written (data : List β)
  deriving DecidableEq, Repr

abbrev LargeBuffer (β : Type) := FixedBuffer kLargeBuffer β

structure AsyncLogger (β : Type) where
  heap : Store (LargeBuffer β)
  running : Bool
  currentBuffer : Option ℕ
  nextBuffer : Option ℕ
  buffers : List (Option ℕ)
  /-- Local to `threadFun`, as are the two spare buffers and `index`. -/
  bufferToWrite : List (Option ℕ)
  newBuffer1 : Option ℕ
  newBuffer2 : Option ℕ
  index : ℕ
  writer : Writer
  stopper : Stopper

/-- A step of one of the logger's threads. -/
abbrev LoggerAct (β : Type) := Step LoggerFault (LogEvent β) (AsyncLogger β)

namespace AsyncLogger

variable {β : Type}

/-- The constructor. -/
def init : AsyncLogger β where
  heap := ⟨2, fun _ => .empty⟩
  running := false
  currentBuffer := some 0
  nextBuffer := some 1
  buffers := []
  bufferToWrite := []
  newBuffer1 := none
  newBuffer2 := none
  index := 0
  writer := .none
  stopper := .idle

/-- The bytes of a buffer. A null pointer has none. -/
def content (s : AsyncLogger β) (p : Option ℕ) : List β := s.heap.read [] FixedBuffer.data p

def goto (w : Writer) : LoggerAct β Unit := Act.modify fun s => { s with writer := w }

/-- The writer goes on from `w`. -/
def At (w : Writer) (s : AsyncLogger β) : Prop := s.writer = w

instance (w : Writer) : DecidablePred (At (β := β) w) := fun _ =>
  inferInstanceAs (Decidable (_ = _))

/-- `new Buffer`. -/
def newBuffer : LoggerAct β ℕ := do
  let s ← Act.get
  Act.modify fun s => { s with heap := s.heap.alloc .empty }
  pure s.heap.made

/-! ## The front end -/

/-- `currentBuffer_->append(logline, len)`. -/
def appendCurrent (logline : List β) : LoggerAct β Unit := do
  let s ← Act.get
  let i ← Act.need (.fails .nullDereference) s.currentBuffer
  let b ← Act.need (.fails .outOfBounds) ((s.heap.get i).append logline)
  Act.modify fun s => { s with heap := s.heap.set i b }

/-- The buffer that takes the place of a full one. -/
def rotate : LoggerAct β Unit := do
  Act.modify fun s => { s with buffers := s.buffers ++ [s.currentBuffer], currentBuffer := none }
  let s ← Act.get
  match s.nextBuffer with
  | some i => Act.modify fun s => { s with currentBuffer := some i, nextBuffer := none }
  | none => do
    let i ← newBuffer
    Act.modify fun s => { s with currentBuffer := some i }

/-- `append`. The notification is left out, since the writer may wake up at any time. -/
def append (logline : List β) : LoggerAct β Unit := do
  let s ← Act.get
  let i ← Act.need (.fails .nullDereference) s.currentBuffer
  (if (s.heap.get i).avail > logline.length then appendCurrent logline
    else do
      rotate
      appendCurrent logline)
  Act.emit (.appended logline)

/-- `start`, up to its wait for the latch. -/
def start : LoggerAct β Unit :=
  Act.await (At .none) do
    Act.modify fun s => { s with running := true }
    goto .starting

/-- `start` has returned, and `stop` has not been called. -/
def Started (s : AsyncLogger β) : Prop :=
  s.stopper = .idle ∧ s.writer ≠ .none ∧ s.writer ≠ .starting

instance : DecidablePred (Started (β := β)) := fun _ => inferInstanceAs (Decidable (_ ∧ _ ∧ _))

/-- `stop`, up to `thread_.join()`. -/
def stop : LoggerAct β Unit :=
  Act.await Started do
    Act.modify fun s => { s with running := false, stopper := .joining }

/-- The thread that `join` waits for has ended. -/
def Joinable (s : AsyncLogger β) : Prop := s.stopper = .joining ∧ s.writer = .returned

instance : DecidablePred (Joinable (β := β)) := fun _ => inferInstanceAs (Decidable (_ ∧ _))

/-- The end of `stop`. -/
def join : LoggerAct β Unit :=
  Act.await Joinable do
    Act.modify fun s => { s with stopper := .returned }

/-! ## The writer -/

/-- The assertion at the start of `threadFun`, and `latch_.countDown()`. -/
def countDown : LoggerAct β Unit :=
  Act.await (At .starting) do
    let s ← Act.get
    Act.check (.fails .assertion) (s.running = true)
    goto .settingUp

def setUp : LoggerAct β Unit :=
  Act.await (At .settingUp) do
    let i ← newBuffer
    let j ← newBuffer
    Act.modify fun s => { s with newBuffer1 := some i, newBuffer2 := some j, bufferToWrite := [] }
    goto .testing

/-- `newBuffer && newBuffer->length() == 0`. -/
def isSpare (s : AsyncLogger β) (p : Option ℕ) : Bool := p.any fun i => (s.heap.get i).length == 0

/-- `while (running_)`, with the assertions after it. -/
def test : LoggerAct β Unit :=
  Act.await (At .testing) do
    let s ← Act.get
    if s.running then
      Act.check (.fails .assertion) (s.isSpare s.newBuffer1 = true)
      Act.check (.fails .assertion) (s.isSpare s.newBuffer2 = true)
      Act.check (.fails .assertion) (s.bufferToWrite = [])
      goto .locking
    else goto .returned

/-- What the critical section does after the wait. -/
def swapped (s : AsyncLogger β) : AsyncLogger β :=
  { s with
    bufferToWrite := s.buffers ++ [s.currentBuffer]
    buffers := s.bufferToWrite
    currentBuffer := s.newBuffer1
    newBuffer1 := none
    nextBuffer := if s.nextBuffer.isNone then s.newBuffer2 else s.nextBuffer
    newBuffer2 := if s.nextBuffer.isNone then none else s.newBuffer2
    writer := .swapped }

def swap : LoggerAct β Unit := do
  Act.modify swapped
  let s ← Act.get
  Act.emit (.swapped (s.bufferToWrite.map s.content))

/-- The critical section, up to the wait if there is one. -/
def lock : LoggerAct β Unit :=
  Act.await (At .locking) do
    let s ← Act.get
    if s.buffers = [] then goto .waiting else swap

/-- `wait_for` returns. -/
def wake : LoggerAct β Unit := Act.await (At .waiting) swap

def erase : LoggerAct β Unit :=
  Act.await (At .swapped) do
    let s ← Act.get
    Act.check (.fails .assertion) (s.bufferToWrite ≠ [])
    (if s.bufferToWrite.length > 25 then
        Act.modify fun s => { s with bufferToWrite := s.bufferToWrite.take 2 }
      else pure ())
    Act.modify fun s => { s with index := 0 }
    goto .writing

def HasMore (s : AsyncLogger β) : Prop := s.writer = .writing ∧ s.index < s.bufferToWrite.length

instance : DecidablePred (HasMore (β := β)) := fun _ => inferInstanceAs (Decidable (_ ∧ _))

/-- `output.append(i->data(), i->length())`. -/
def write : LoggerAct β Unit :=
  Act.await HasMore do
    let s ← Act.get
    let i ← Act.need (.fails .nullDereference) s.bufferToWrite[s.index]?.join
    Act.emit (.written (s.heap.get i).data)
    Act.modify fun s => { s with index := s.index + 1 }

/-- `bufferToWrite.back()`, reset and removed. -/
def popBack : LoggerAct β ℕ := do
  let s ← Act.get
  Act.check (.fails .assertion) (s.bufferToWrite ≠ [])
  let i ← Act.need (.fails .nullDereference) s.bufferToWrite.getLast?.join
  Act.modify fun s =>
    { s with
      bufferToWrite := s.bufferToWrite.dropLast
      heap := s.heap.set i (s.heap.get i).reset }
  pure i

def refill1 : LoggerAct β Unit := do
  let s ← Act.get
  if s.newBuffer1.isNone then
    let i ← popBack
    Act.modify fun s => { s with newBuffer1 := some i }
  else pure ()

def refill2 : LoggerAct β Unit := do
  let s ← Act.get
  if s.newBuffer2.isNone then
    let i ← popBack
    Act.modify fun s => { s with newBuffer2 := some i }
  else pure ()

def HasWritten (s : AsyncLogger β) : Prop := s.writer = .writing ∧ s.bufferToWrite.length ≤ s.index

instance : DecidablePred (HasWritten (β := β)) := fun _ => inferInstanceAs (Decidable (_ ∧ _))

/-- The end of an iteration, after the last buffer is written. -/
def recycle : LoggerAct β Unit :=
  Act.await HasWritten do
    let s ← Act.get
    (if s.bufferToWrite.length > 2 then
        Act.modify fun s => { s with bufferToWrite := s.bufferToWrite.take 2 }
      else pure ())
    refill1
    refill2
    Act.modify fun s => { s with bufferToWrite := [] }
    goto .testing

end AsyncLogger

/-! ## Steps -/

inductive LogOp (β : Type)
  | append (logline : List β)
  | start
  | stop
  | join
  | countDown
  | setUp
  | test
  | lock
  | wake
  | erase
  | write
  | recycle

variable {β : Type}

def LogOp.exec : LogOp β → LoggerAct β Unit
  | append logline => AsyncLogger.append logline
  | start => AsyncLogger.start
  | stop => AsyncLogger.stop
  | join => AsyncLogger.join
  | countDown => AsyncLogger.countDown
  | setUp => AsyncLogger.setUp
  | test => AsyncLogger.test
  | lock => AsyncLogger.lock
  | wake => AsyncLogger.wake
  | erase => AsyncLogger.erase
  | write => AsyncLogger.write
  | recycle => AsyncLogger.recycle

/-- A step of a run. -/
abbrev LogCall (β : Type) := Call (LogOp β) (Halt LoggerFault) (LogEvent β) (AsyncLogger β)

end Cannet.Base
