import Cannet.Foundations.Exchange
import Cannet.Net.EventLoopThreadPool
import Cannet.Net.Loop.Descriptors

/-!
# A server and its loops

`TcpServer` of `net/TcpServer.cpp` with the loops it hands its connections to: the loop it was made
with, and those of the threads of its pool. The accepting thread takes a socket from the kernel and
queues a `createConnection` on the loop whose turn it is; the loops take their steps in any order,
each on its own connections. They share the descriptors of the process, which the kernel gives out
again as soon as they are closed.
-/

namespace Cannet.Net

open Foundations

variable {β : Type}

/-- How a step of the server may fail. -/
inductive ServerAbort
  | threadPool (a : LoopPoolAbort)
  | loop (a : Abort)
  deriving DecidableEq, Repr

/-- What is done, and on which loop. -/
structure ServerEffect (β : Type) where
  ptr : LoopPtr
  effect : LifeEffect (Effect β)
  deriving DecidableEq

structure Server (β : Type) where
  threadPool : EventLoopThreadPool
  started : Bool
  connectionCallback : Option Callback
  messageCallback : Option Callback
  writeCompleteCallback : Option Callback
  loops : LoopPtr → EventLoop β
  /-- The sockets that were accepted and are open. -/
  descriptors : List ℤ
  /-- The other descriptors of the process. -/
  files : List ℤ

/-- A step of the server, or of one of its loops. -/
abbrev ServerAct (β α : Type) := Act ServerAbort (ServerEffect β) (Server β) α

namespace Server

def defaultConnectionCallback : Callback := 0

def defaultMessageCallback : Callback := 1

/-- A server as its constructor leaves it, in a process with some descriptors open. -/
def init [Inhabited β] (files : List ℤ) : Server β where
  threadPool := .init
  started := false
  connectionCallback := some defaultConnectionCallback
  messageCallback := some defaultMessageCallback
  writeCompleteCallback := none
  loops _ := EventLoop.start
  descriptors := []
  files := files

/-- A call of the pool that gives no loop. -/
def onThreadPool (x : LoopPoolAct Unit) : ServerAct β Unit := fun s =>
  let o := x s.threadPool
  ⟨o.val.mapError .threadPool, { s with threadPool := o.state }, []⟩

/-- The loop that the pool gives. -/
def nextLoop (threadPool : EventLoopThreadPool) : Option LoopPtr :=
  (EventLoopThreadPool.getNextLoop threadPool).trace.head?

/-- A step of one of the loops. What it closes the kernel may give out again. -/
def onLoop (ptr : LoopPtr) (x : LoopAct β Unit) : ServerAct β Unit := fun s =>
  let o := x (s.loops ptr)
  ⟨o.val.mapError .loop,
    { s with
      loops := Function.update s.loops ptr o.state
      descriptors := s.descriptors.diff (closedFds o.trace) },
    o.trace.map (ServerEffect.mk ptr)⟩

def setThreadNum (numThreads : ℤ) : ServerAct β Unit :=
  onThreadPool (TcpServer.setThreadNum numThreads)

def start : ServerAct β Unit := do
  let s ← Act.get
  if s.started = false then
    Act.modify fun s => { s with started := true }
    onThreadPool EventLoopThreadPool.start

/-- The functor that the loop gets is made of the callbacks as they are now. -/
def newConnection (sockFd : ℤ) : ServerAct β Unit := do
  let s ← Act.get
  onThreadPool EventLoopThreadPool.getNextLoop
  match nextLoop s.threadPool with
  | some ioLoop =>
    onLoop ioLoop (EventLoop.newConnection sockFd s.connectionCallback s.messageCallback
      s.writeCompleteCallback)
  | none => pure ()

/-- A round of `acceptHandRead` in which the kernel gives a connection. -/
def acceptRound (connFd : ℤ) : ServerAct β Unit := do
  Act.modify fun s => { s with descriptors := connFd :: s.descriptors }
  newConnection connFd

/-- The loops that run, the server's own first. -/
def running (s : Server β) : List LoopPtr := .base :: s.threadPool.loops

end Server

/-- A step of the process. -/
inductive ServerOp (β : Type)
  | setThreadNum (numThreads : ℤ)
  | setConnectionCallback (cb : Option Callback)
  | setMessageCallback (cb : Option Callback)
  | setWriteCompleteCallback (cb : Option Callback)
  | start
  | accept (connFd : ℤ)
  | onLoop (ptr : LoopPtr) (op : LoopOp β)
  | openFile (fd : ℤ)
  | closeFile (fd : ℤ)

def ServerOp.exec [Inhabited β] : ServerOp β → ServerAct β Unit
  | setThreadNum numThreads => Server.setThreadNum numThreads
  | setConnectionCallback cb => Act.modify fun s => { s with connectionCallback := cb }
  | setMessageCallback cb => Act.modify fun s => { s with messageCallback := cb }
  | setWriteCompleteCallback cb => Act.modify fun s => { s with writeCompleteCallback := cb }
  | start => Server.start
  | accept connFd => Server.acceptRound connFd
  | onLoop ptr op => Server.onLoop ptr op.exec
  | openFile fd => Act.modify fun s => { s with files := fd :: s.files }
  | closeFile fd => Act.modify fun s => { s with files := s.files.erase fd }

abbrev ServerCall (β : Type) :=
  Call (ServerOp β) ServerAbort (ServerEffect β) (Server β)

/-- Only `newConnection` hands a socket to a loop. -/
def LoopOp.isNewConnection : LoopOp β → Bool
  | newConnection .. => true
  | _ => false

/-- The kernel gives descriptors that are not open; the rest of the process closes its own; a loop
that runs takes its steps in the order of `loop()`. -/
def Serving [Inhabited β] (_ : List (ServerCall β)) (call : ServerCall β) : Prop :=
  let s := call.before
  match call.input with
  | .accept connFd => connFd ∉ s.descriptors ∧ connFd ∉ s.files
  | .onLoop ptr op => ptr ∈ s.running ∧ op.isNewConnection = false ∧
      Scheduled [] (Call.make LoopOp.exec op (s.loops ptr))
  | .openFile fd => fd ∉ s.descriptors ∧ fd ∉ s.files
  | .closeFile fd => fd ∈ s.files
  | _ => True

instance [Inhabited β] : ∀ (calls : List (ServerCall β)) (call : ServerCall β),
    Decidable (Serving calls call)
  | _, ⟨.accept connFd, s, _⟩ =>
    inferInstanceAs (Decidable (connFd ∉ s.descriptors ∧ connFd ∉ s.files))
  | _, ⟨.onLoop ptr op, s, _⟩ =>
    inferInstanceAs (Decidable (ptr ∈ s.running ∧ op.isNewConnection = false ∧
      Scheduled [] (Call.make LoopOp.exec op (s.loops ptr))))
  | _, ⟨.openFile fd, s, _⟩ => inferInstanceAs (Decidable (fd ∉ s.descriptors ∧ fd ∉ s.files))
  | _, ⟨.closeFile fd, s, _⟩ => inferInstanceAs (Decidable (fd ∈ s.files))
  | _, ⟨.setThreadNum _, _, _⟩ | _, ⟨.setConnectionCallback _, _, _⟩
  | _, ⟨.setMessageCallback _, _, _⟩ | _, ⟨.setWriteCompleteCallback _, _, _⟩
  | _, ⟨.start, _, _⟩ => isTrue trivial

/-! ## What a step is to a loop -/

/-- The step of a loop in a step of the process. -/
def ServerOp.loopOp (ptr : LoopPtr) (s : Server β) : ServerOp β → Option (LoopOp β)
  | accept connFd =>
    if Server.nextLoop s.threadPool = some ptr then
      some (.newConnection connFd s.connectionCallback s.messageCallback s.writeCompleteCallback)
    else none
  | onLoop ptr' op => if ptr' = ptr then some op else none
  | _ => none

/-- What is done on a loop. -/
def onLoopTrace (ptr : LoopPtr) (es : List (ServerEffect β)) : List (LifeEffect (Effect β)) :=
  es.filterMap fun e => if e.ptr = ptr then some e.effect else none

/-- The calls of a loop in those of the process. -/
def loopCallOn [Inhabited β] (ptr : LoopPtr) (call : ServerCall β) : Option (LoopCall β) :=
  (call.input.loopOp ptr call.before).map fun op => Call.make LoopOp.exec op (call.before.loops ptr)

end Cannet.Net
