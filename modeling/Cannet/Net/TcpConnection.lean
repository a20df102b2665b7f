import Cannet.Net.Buffer
import Cannet.Net.Channel

/-!
# A connection

`TcpConnection` of `net/TcpConnection.h` and `net/TcpConnection.cpp`, function by function. Each
function is a call on the connection in the sense of `Act`; the results of the system calls it may
make are its arguments `w`, `f`, `r` (unused if the call is not made). `onLoop` says whether the
caller is the loop's thread.

`handleClose` goes through `closeCallback_`, which `Epoll::createConnection` sets to
`removeConnection`, and from there to `connectDestroyed` at once, on the loop's thread.
-/

namespace Cannet.Net

open Foundations

/-- `StateE`. -/
inductive StateE
  | kDisconnected
  | kConnecting
  | kConnected
  | kDisconnecting
  deriving DecidableEq, Repr

/-- `SendFileUtil` of `base/File.h`: an open file with the range still to be sent. -/
structure SendFileUtil where
  inFd : ℤ
  offset : ℕ
  sendLen : ℕ
  deriving DecidableEq, Repr

/-- A `std::function` the user has set, by name. -/
abbrev Callback := ℕ

structure TcpConnection (β : Type) where
  state : StateE
  sockFd : ℤ
  channel : Channel
  connectionCallback : Option Callback
  messageCallback : Option Callback
  writeCompleteCallback : Option Callback
  /-- Whether `closeCallback_` is set, to `removeConnection`. -/
  closeCallback : Bool
  inputBuffer : Buffer β
  outputBuffer : Buffer β
  sendFile : Option SendFileUtil
  reading : Bool
  deriving DecidableEq, Repr

/-- A call on a connection. -/
abbrev Conn (β α : Type) := Act Abort (Effect β) (TcpConnection β) α

namespace TcpConnection

variable {β : Type}

/-- A call on the connection's channel. -/
def onChannel (x : Act Abort (Effect β) Channel Unit) : Conn β Unit :=
  Act.zoom (·.channel) (fun ch c => { c with channel := ch }) x

/-- An operation of `outputBuffer_`; its assertion may fail. -/
def onOutputBuffer (op : Buffer β → Option (Buffer β)) : Conn β Unit := do
  let c ← Act.get
  let b ← Act.need .assertion (op c.outputBuffer)
  Act.modify fun c => { c with outputBuffer := b }

def setState (s : StateE) : Conn β Unit := Act.modify fun c => { c with state := s }

def sendFileReset : Conn β Unit := Act.modify fun c => { c with sendFile := none }

def setSendFile (file : SendFileUtil) : Conn β Unit :=
  Act.modify fun c => { c with sendFile := some file }

/-- `EventLoop::runInLoop`: the call itself on the loop's thread, else its functor queued. -/
def runInLoop (onLoop : Bool) (functor : Functor β) (call : Conn β Unit) : Conn β Unit :=
  if onLoop then call else Act.emit (.queueInLoop functor)

/-- `if (writeCompleteCallback_)`, its functor queued. -/
def queueWriteComplete : Conn β Unit := do
  let c ← Act.get
  if c.writeCompleteCallback.isSome then
    Act.emit (.queueInLoop .writeCompleteCallback)

/-- `if (!channel_->isWriting()) channel_->enableEvents(kWriteEvent)`. -/
def enableWriting : Conn β Unit := do
  let c ← Act.get
  if ¬c.channel.isWriting then
    onChannel (Channel.enableEvents kWriteEvent)

/-- `n` bytes read from `data.c_str() + pos`; the terminator is there to be read as well. -/
def cStr [Inhabited β] (data : List β) (pos n : ℕ) : Option (List β) :=
  let bytes := data ++ [default]
  if pos + n ≤ bytes.length then some ((bytes.drop pos).take n) else none

/-- The kernel's part of `sendfile` with an offset pointer: it advances the offset itself. -/
def kernelAdvance (n : ℕ) (file : SendFileUtil) : SendFileUtil :=
  { file with offset := file.offset + n }

/-- The locals of `sendInLoop` after its direct write. -/
structure Written where
  nwrote : ℕ
  remaining : ℕ
  faultError : Bool

/-- The direct write of `sendInLoop`, made when write interest is off and nothing is buffered. What
`errno` is tested for is what the write has set: `LOG_SYSERR`, which comes before the test, is taken
to leave it alone. -/
def directWrite [Inhabited β] (w : SysRet) (data : List β) (len : ℕ) : Conn β Written := do
  let c ← Act.get
  if ¬c.channel.isWriting ∧ c.outputBuffer.readableBytes = 0 then
    let bytes ← Act.need .outOfBounds (cStr data 0 len)
    Act.emit (.write c.channel.fd bytes w)
    match w with
    | .ok nwrote =>
      let remaining := len - nwrote
      match c.sendFile with
      | none => if remaining = 0 then queueWriteComplete
      | some file => if remaining = 0 ∧ file.sendLen = 0 then queueWriteComplete
      pure ⟨nwrote, remaining, false⟩
    | .err e => pure ⟨0, len, e.isFault⟩
  else
    pure ⟨0, len, false⟩

/-- The `sendfile` of `sendInLoop`, its count stored: the bytes still to be sent, and whether the
connection is taken for dead, on the `errno` of the call as in `directWrite`. -/
def directSendfile (f : SysRet) (file : SendFileUtil) : Conn β (ℕ × Bool) := do
  let c ← Act.get
  Act.emit (.sendfile c.channel.fd file.inFd file.offset file.sendLen f)
  match f with
  | .ok nwrote =>
    let file := kernelAdvance nwrote file
    let file := { file with sendLen := file.sendLen - nwrote, offset := file.offset + nwrote }
    Act.modify fun c => { c with sendFile := some file }
    if file.sendLen = 0 ∧ c.writeCompleteCallback.isSome then
      sendFileReset
      queueWriteComplete
    pure (file.sendLen, false)
  | .err e => pure (file.sendLen, e.isFault)

/-- The last branch of `sendInLoop`: the header is out, a file is attached. The final assertion
reads `sendFile_` again, which the completed transfer may have released. -/
def sendFileInLoop (f : SysRet) (file : SendFileUtil) : Conn β Unit := do
  let (remaining, faultError) ← directSendfile f file
  let c ← Act.get
  let file ← Act.need .nullDereference c.sendFile
  Act.check .assertion (remaining ≤ file.sendLen)
  if ¬faultError ∧ 0 < remaining then
    enableWriting

def sendInLoop [Inhabited β] (w f : SysRet) (data : List β) (len : ℕ) : Conn β Unit := do
  Act.emit (.sendInLoop data len)
  let c ← Act.get
  if c.state = .kDisconnected then
    pure ()
  else
    let d ← directWrite w data len
    Act.check .assertion (d.remaining ≤ len)
    if ¬d.faultError ∧ 0 < d.remaining then
      let rest ← Act.need .outOfBounds (cStr data d.nwrote d.remaining)
      onOutputBuffer (·.append rest)
      enableWriting
    else
      match c.sendFile with
      | none => pure ()
      | some file => sendFileInLoop f file

/-- `send(std::string)`. The functor of the last branch captures `message`, a parameter of this
function, by reference. -/
def send [Inhabited β] (onLoop : Bool) (w f : SysRet) (message : List β) : Conn β Unit := do
  let c ← Act.get
  if c.state = .kConnected then
    if onLoop then
      sendInLoop w f message message.length
  else
    runInLoop onLoop (.sendInLoop .byReference) (sendInLoop w f message message.length)

def shutdownInLoop : Conn β Unit := do
  let c ← Act.get
  if ¬c.channel.isWriting then
    Act.emit (.shutdownWrite c.sockFd)

def shutdown (onLoop : Bool) : Conn β Unit := do
  let c ← Act.get
  if c.state = .kConnected then
    setState .kDisconnecting
    runInLoop onLoop .shutdownInLoop shutdownInLoop

def setTcpNoDelay (on : Bool) : Conn β Unit := do
  let c ← Act.get
  Act.emit (.setTcpNoDelay c.sockFd on)

def startReadInLoop : Conn β Unit := do
  let c ← Act.get
  if ¬c.reading ∨ ¬c.channel.isReading then
    onChannel (Channel.enableEvents kReadEventLT)
    Act.modify fun c => { c with reading := true }

def stopReadInLoop : Conn β Unit := do
  let c ← Act.get
  if c.reading ∨ c.channel.isReading then
    onChannel (Channel.disableEvents kReadEventLT)
    Act.modify fun c => { c with reading := false }

def startRead (onLoop : Bool) : Conn β Unit := runInLoop onLoop .startReadInLoop startReadInLoop

def stopRead (onLoop : Bool) : Conn β Unit := runInLoop onLoop .stopReadInLoop stopReadInLoop

/-- What `handleWrite` does when the last byte it had to send is out. -/
def outputSent : Conn β Unit := do
  onChannel (Channel.disableEvents kWriteEvent)
  queueWriteComplete
  let c ← Act.get
  if c.state = .kDisconnecting then
    shutdownInLoop

def handleWrite (r : SysRet) : Conn β Unit := do
  let c ← Act.get
  if c.channel.isWriting then
    if 0 < c.outputBuffer.readableBytes then
      Act.emit (.write c.channel.fd c.outputBuffer.readable r)
      match r with
      | .ok n =>
        if 0 < n then
          onOutputBuffer (·.retrieve n)
          let c ← Act.get
          if c.outputBuffer.readableBytes = 0 then
            outputSent
      | .err _ => pure ()
    else
      match c.sendFile with
      | none => pure ()
      | some file =>
        Act.emit (.sendfile c.channel.fd file.inFd file.offset file.sendLen r)
        match r with
        | .ok n =>
          if 0 < n then
            let file := kernelAdvance n file
            let file := { file with sendLen := file.sendLen - n, offset := file.offset + n }
            Act.modify fun c => { c with sendFile := some file }
            if file.sendLen = 0 then
              sendFileReset
              outputSent
        | .err _ => pure ()

/-! ## Opening and closing -/

/-- `connectionCallback_(shared_from_this())`; the callback reads `connected()`. -/
def callConnectionCallback : Conn β Unit := do
  let c ← Act.get
  if c.connectionCallback.isSome then
    Act.emit (.connectionCallback (c.state = .kConnected))
  else
    Act.abort .badFunctionCall

def connectEstablished : Conn β Unit := do
  let c ← Act.get
  Act.check .assertion (c.state = .kConnecting)
  setState .kConnected
  onChannel (Channel.enableEvents kReadEventLT)
  callConnectionCallback

def connectDestroyed : Conn β Unit := do
  let c ← Act.get
  if c.state = .kConnected then
    setState .kDisconnected
    onChannel Channel.disableAll
    callConnectionCallback
  onChannel Channel.remove

def handleClose : Conn β Unit := do
  let c ← Act.get
  Act.check .assertion (c.state = .kConnected ∨ c.state = .kDisconnecting)
  setState .kDisconnected
  onChannel Channel.disableAll
  if c.closeCallback then
    connectDestroyed
  else
    Act.abort .badFunctionCall

def handleError : Conn β Unit := do
  let c ← Act.get
  Act.emit (.getSocketError c.channel.fd)

/-- The result of `readv`: the bytes received, or -1 with `errno`. -/
inductive ReadRet (β : Type)
  | ok (received : List β)
  | err (e : Errno)
  deriving DecidableEq, Repr

def handleRead [Inhabited β] (r : ReadRet β) : Conn β Unit := do
  let c ← Act.get
  Act.emit (.readv c.channel.fd)
  match r with
  | .ok received =>
    let b ← Act.need .assertion (c.inputBuffer.readFd received)
    Act.modify fun c => { c with inputBuffer := b }
    if received = [] then
      handleClose
    else if c.messageCallback.isSome then
      Act.emit .messageCallback
    else
      Act.abort .badFunctionCall
  | .err _ => handleError

def forceClose : Conn β Unit := do
  let c ← Act.get
  if c.state = .kConnected ∨ c.state = .kDisconnecting then
    setState .kDisconnecting
    Act.emit (.queueInLoop .forceCloseInLoop)

def forceCloseInLoop : Conn β Unit := do
  let c ← Act.get
  if c.state = .kConnected ∨ c.state = .kDisconnecting then
    handleClose

/-- A connection as its constructor leaves it. -/
def init [Inhabited β] (sockFd : ℤ) : TcpConnection β where
  state := .kConnecting
  sockFd := sockFd
  channel := Channel.init sockFd
  connectionCallback := none
  messageCallback := none
  writeCompleteCallback := none
  closeCallback := false
  inputBuffer := Buffer.init Buffer.kInitSize
  outputBuffer := Buffer.init Buffer.kInitSize
  sendFile := none
  reading := true

def connectReset (sockFd : ℤ) : Conn β Unit := do
  Act.modify fun c =>
    { c with
      state := .kConnecting
      sockFd := sockFd
      channel := Channel.channelReset sockFd c.channel
      reading := true
      inputBuffer := c.inputBuffer.retrieveAll
      outputBuffer := c.outputBuffer.retrieveAll }
  sendFileReset
  Act.emit (.setKeepAlive sockFd)

end TcpConnection

end Cannet.Net
