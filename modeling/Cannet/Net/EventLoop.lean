import Cannet.Foundations.Lives
import Cannet.Net.TcpConnection

/-!
# The loop and its connections

The part of `net/EventLoop.cpp` and `net/Epoll.cpp` that holds the connections of a loop:
`queueInLoop`, `runFunctors`, `createConnection` and what `removeChannel` does to `connections_`
and `connectionsPool`. A `TcpConnection` object is named by a number, in the order in which they
are made; `made` is how many there are. `life` counts how often an object has been reset for
another socket. The code keeps no such count: it is there to say which life something was done or
asked for in.

The calls are the steps of the loop. `Channel::handleEvent` is up to four `handleEvent` steps, one
for each callback it makes; the callbacks of the user come last in the functions that make them,
so what they ask for are `request` steps after the step that made them, as are the requests of
other threads.
-/

namespace Cannet.Net

open Foundations

/-- A functor in the queue of a loop: of `TcpServer::newConnection`, or of a connection, with the
life it was queued in. The first captures the server and reads its callbacks when it is called; here
it holds them, for a server whose callbacks stay as they are while connections are waiting. -/
inductive LoopFunctor (β : Type)
  | createConnection (sockFd : ℤ)
      (connectCallback messageCallback writeCompleteCallback : Option Callback)
  | connection (conn life : ℕ) (functor : Functor β)

structure EventLoop (β : Type) where
  conn : ℕ → TcpConnection β
  made : ℕ
  life : ℕ → ℕ
  connectionsPool : List (Option ℕ)
  connections : ℤ → Option ℕ
  functors : List (LoopFunctor β)
  /-- What is left of the functors `runFunctors` has taken. -/
  running : List (LoopFunctor β)

/-- A call on a loop. -/
abbrev LoopAct (β α : Type) := Act Abort (LifeEffect (Effect β)) (EventLoop β) α

/-- A callback of a channel made by `handleEvent`, with what the kernel answers. -/
inductive ChannelCallback (β : Type)
  | closeCallback
  | errorCallback
  | readCallback (r : TcpConnection.ReadRet β)
  | writeCallback (r : SysRet)

/-- A public function of a connection called by its user. -/
inductive Request (β : Type)
  | send (onLoop : Bool) (message : List β) (w f : SysRet)
  | shutdown (onLoop : Bool)
  | forceClose
  | startRead (onLoop : Bool)
  | stopRead (onLoop : Bool)
  | setTcpNoDelay (on : Bool)
  | setSendFile (file : SendFileUtil)

variable {β : Type}

def ChannelCallback.call [Inhabited β] : ChannelCallback β → Conn β Unit
  | closeCallback => TcpConnection.handleClose
  | errorCallback => TcpConnection.handleError
  | readCallback r => TcpConnection.handleRead r
  | writeCallback r => TcpConnection.handleWrite r

def Request.call [Inhabited β] : Request β → Conn β Unit
  | send onLoop message w f => TcpConnection.send onLoop w f message
  | shutdown onLoop => TcpConnection.shutdown onLoop
  | forceClose => TcpConnection.forceClose
  | startRead onLoop => TcpConnection.startRead onLoop
  | stopRead onLoop => TcpConnection.stopRead onLoop
  | setTcpNoDelay on => TcpConnection.setTcpNoDelay on
  | setSendFile file => TcpConnection.setSendFile file

/-- A functor of a connection, run from the queue. -/
def Functor.call [Inhabited β] (w f : SysRet) : Functor β → Conn β Unit
  | writeCompleteCallback => do
    let c ← Act.get
    if c.writeCompleteCallback.isSome then pure () else Act.abort .badFunctionCall
  | sendInLoop (.byValue message) => TcpConnection.sendInLoop w f message message.length
  | sendInLoop .byReference => Act.abort .danglingReference
  | shutdownInLoop => TcpConnection.shutdownInLoop
  | forceCloseInLoop => TcpConnection.forceCloseInLoop
  | startReadInLoop => TcpConnection.startReadInLoop
  | stopReadInLoop => TcpConnection.stopReadInLoop

namespace EventLoop

/-- What the loop does for a connection: `queueInLoop`, and the move from `connections_` to
`connectionsPool`. -/
def perform (conn : ℕ) (s : EventLoop β) : Effect β → EventLoop β
  | .queueInLoop functor =>
    { s with functors := s.functors ++ [.connection conn (s.life conn) functor] }
  | .recycle fd =>
    { s with
      connectionsPool := s.connectionsPool ++ [s.connections fd]
      connections := Function.update s.connections fd none }
  | _ => s

/-- A call on one of the connections. -/
def onConnection (conn : ℕ) (x : Conn β Unit) : LoopAct β Unit := fun s =>
  let o := x (s.conn conn)
  ⟨o.val, o.trace.foldl (perform conn) { s with conn := Function.update s.conn conn o.state },
    o.trace.map (LifeEffect.mk conn (s.life conn))⟩

/-- A connection as the second branch of `createConnection` sets it up. -/
def newConn [Inhabited β] (sockFd : ℤ)
    (connectCallback messageCallback writeCompleteCallback : Option Callback) : TcpConnection β :=
  { TcpConnection.init sockFd with
    connectionCallback := connectCallback
    messageCallback := messageCallback
    writeCompleteCallback := writeCompleteCallback
    closeCallback := true }

/-- `Epoll::createConnection`, on the loop's thread. The constructor of a connection sets the
keep-alive of its socket. -/
def createConnection [Inhabited β] (sockFd : ℤ)
    (connectCallback messageCallback writeCompleteCallback : Option Callback) :
    LoopAct β Unit := do
  let s ← Act.get
  match s.connectionsPool.getLast? with
  | some back =>
    let conn ← Act.need .nullDereference back
    Act.modify fun s => { s with life := Function.update s.life conn (s.life conn + 1) }
    onConnection conn (TcpConnection.connectReset sockFd)
    Act.modify fun s =>
      { s with
        connections := Function.update s.connections sockFd (some conn)
        connectionsPool := s.connectionsPool.dropLast }
    onConnection conn TcpConnection.connectEstablished
  | none =>
    let conn := s.made
    Act.modify fun s =>
      { s with
        made := conn + 1
        conn := Function.update s.conn conn
          (newConn sockFd connectCallback messageCallback writeCompleteCallback) }
    onConnection conn (Act.emit (.setKeepAlive sockFd))
    Act.modify fun s => { s with connections := Function.update s.connections sockFd (some conn) }
    onConnection conn TcpConnection.connectEstablished

/-- A functor from the queue. -/
def callFunctor [Inhabited β] (w f : SysRet) : LoopFunctor β → LoopAct β Unit
  | .createConnection sockFd connectCallback messageCallback writeCompleteCallback =>
    createConnection sockFd connectCallback messageCallback writeCompleteCallback
  | .connection conn _ functor => onConnection conn (functor.call w f)

/-- The swap at the start of `runFunctors`. -/
def swapFunctors : LoopAct β Unit :=
  Act.modify fun s => { s with running := s.functors, functors := [] }

/-- One turn of the loop of `runFunctors`. -/
def runFunctor [Inhabited β] (w f : SysRet) : LoopAct β Unit := do
  let s ← Act.get
  match s.running with
  | [] => pure ()
  | functor :: rest =>
    Act.modify fun s => { s with running := rest }
    callFunctor w f functor

/-- What `TcpServer::newConnection` does on the accepting loop's thread. -/
def newConnection (sockFd : ℤ)
    (connectCallback messageCallback writeCompleteCallback : Option Callback) : LoopAct β Unit :=
  Act.modify fun s =>
    { s with functors := s.functors ++
        [.createConnection sockFd connectCallback messageCallback writeCompleteCallback] }

/-- A loop without connections. -/
def start [Inhabited β] : EventLoop β where
  conn _ := TcpConnection.init 0
  made := 0
  life _ := 0
  connectionsPool := []
  connections _ := none
  functors := []
  running := []

end EventLoop

/-- A step of the loop, or of another thread. -/
inductive LoopOp (β : Type)
  | newConnection (sockFd : ℤ)
      (connectCallback messageCallback writeCompleteCallback : Option Callback)
  | handleEvent (conn : ℕ) (callback : ChannelCallback β)
  | request (conn : ℕ) (r : Request β)
  | swapFunctors
  | runFunctor (w f : SysRet)

def LoopOp.exec [Inhabited β] : LoopOp β → LoopAct β Unit
  | newConnection sockFd connectCallback messageCallback writeCompleteCallback =>
    EventLoop.newConnection sockFd connectCallback messageCallback writeCompleteCallback
  | handleEvent conn callback => EventLoop.onConnection conn callback.call
  | request conn r => EventLoop.onConnection conn r.call
  | swapFunctors => EventLoop.swapFunctors
  | runFunctor w f => EventLoop.runFunctor w f

abbrev LoopCall (β : Type) := Call (LoopOp β) Abort (LifeEffect (Effect β)) (EventLoop β)

/-- The order of the steps in `loop()`: the events of a poll, then the functors queued by then.
Only connections that were made have events or requests. -/
def Scheduled (_ : List (LoopCall β)) (call : LoopCall β) : Prop :=
  let s := call.before
  match call.input with
  | .newConnection .. => True
  | .handleEvent conn _ => s.running.isEmpty = true ∧ conn < s.made
  | .request conn _ => conn < s.made
  | .swapFunctors => s.running.isEmpty = true
  | .runFunctor .. => s.running.isEmpty = false

instance : ∀ (calls : List (LoopCall β)) (call : LoopCall β), Decidable (Scheduled calls call)
  | _, ⟨.newConnection .., _, _⟩ => isTrue trivial
  | _, ⟨.handleEvent conn _, s, _⟩ =>
    inferInstanceAs (Decidable (s.running.isEmpty = true ∧ conn < s.made))
  | _, ⟨.request conn _, s, _⟩ => inferInstanceAs (Decidable (conn < s.made))
  | _, ⟨.swapFunctors, s, _⟩ => inferInstanceAs (Decidable (s.running.isEmpty = true))
  | _, ⟨.runFunctor .., s, _⟩ => inferInstanceAs (Decidable (s.running.isEmpty = false))

end Cannet.Net
