import Cannet.Foundations.Run
import Mathlib.Data.Int.Notation
import Mathlib.Data.Nat.Notation

/-!
# Channels, and what a connection does outside itself

`Channel` of `net/Channel.h` and `net/Channel.cpp`, with the part of `net/Epoll.cpp` that works on
one channel (`updateChannel`, `removeChannel`, `update`). System calls and calls into the loop are
the `Effect`s of the trace, in the order the code makes them. What the kernel answers is part of
the effect and comes in as an argument of the function that makes the call.

Left out: `channels_`, which is written and never read, the logging, and the assertions on the
calling thread and the owner loop, which only log or always hold.
-/

namespace Cannet.Net

open Foundations

/-- The values of `errno` the code distinguishes. -/
inductive Errno
  | EWOULDBLOCK
  | EPIPE
  | ECONNRESET
  | other (n : ℕ)
  deriving DecidableEq, Repr

/-- Whether `errno` is one of the two that `sendInLoop` takes for a dead connection. -/
def Errno.isFault : Errno → Bool
  | .EPIPE | .ECONNRESET => true
  | _ => false

/-- The result of a system call: a count, or -1 with `errno`. -/
inductive SysRet
  | ok (n : ℕ)
  | err (e : Errno)
  deriving DecidableEq, Repr

inductive EpollOp
  | add
  | mod
  | del
  deriving DecidableEq, Repr

/-- A value captured by a lambda: copied, or a reference to a variable of the calling function,
which is gone when the lambda runs from the queue. -/
inductive Capture (α : Type)
  | byValue (a : α)
  | byReference
  deriving DecidableEq, Repr

/-- The functors a connection puts in the loop's queue. -/
inductive Functor (β : Type)
  | writeCompleteCallback
  | sendInLoop (message : Capture (List β))
  | shutdownInLoop
  | forceCloseInLoop
  | startReadInLoop
  | stopReadInLoop
  deriving DecidableEq, Repr

/-- What a connection does outside itself. `recycle` is
`connectionsPool.emplace_back(std::move(connections_[fd]))`; `sendInLoop` marks the entry into
that function, with the bytes and the length it was given. -/
inductive Effect (β : Type)
  | epollCtl (op : EpollOp) (fd : ℤ) (events : BitVec 32)
  | recycle (fd : ℤ)
  | close (fd : ℤ)
  | write (fd : ℤ) (data : List β) (ret : SysRet)
  | sendfile (outFd inFd : ℤ) (offset count : ℕ) (ret : SysRet)
  | readv (fd : ℤ)
  | shutdownWrite (fd : ℤ)
  | setKeepAlive (fd : ℤ)
  | setTcpNoDelay (fd : ℤ) (on : Bool)
  | getSocketError (fd : ℤ)
  | connectionCallback (connected : Bool)
  | messageCallback
  | sendInLoop (data : List β) (len : ℕ)
  | queueInLoop (functor : Functor β)
  deriving DecidableEq, Repr

/-- The ways a call ends the process. -/
inductive Abort
  | assertion
  | nullDereference
  | badFunctionCall
  | outOfBounds
  | danglingReference
  deriving DecidableEq, Repr

def EPOLLIN : BitVec 32 := 0x001

def EPOLLPRI : BitVec 32 := 0x002

def EPOLLOUT : BitVec 32 := 0x004

def EPOLLERR : BitVec 32 := 0x008

def EPOLLHUP : BitVec 32 := 0x010

def kNoneEvent : BitVec 32 := 0

def kReadEventLT : BitVec 32 := EPOLLIN ||| EPOLLPRI

def kWriteEvent : BitVec 32 := EPOLLOUT

/-- The states of a channel in the poller. -/
inductive Status
  | kNew
  | kAdded
  | kDeleted
  deriving DecidableEq, Repr

structure Channel where
  fd : ℤ
  events : BitVec 32
  revents : BitVec 32
  status : Status
  eventHandling : Bool
  addedToLoop : Bool
  deriving DecidableEq, Repr

namespace Channel

variable {β : Type}

/-- A channel as its constructor leaves it. -/
def init (fd : ℤ) : Channel := ⟨fd, 0, 0, .kNew, false, false⟩

def isNoneEvent (ch : Channel) : Bool := ch.events = kNoneEvent

def isWriting (ch : Channel) : Bool := ch.events &&& kWriteEvent ≠ 0

def isReading (ch : Channel) : Bool := ch.events &&& kReadEventLT ≠ 0

/-- `Epoll::updateChannel`. -/
def updateChannel : Act Abort (Effect β) Channel Unit := do
  let ch ← Act.get
  if ch.status = .kNew ∨ ch.status = .kDeleted then
    Act.modify fun ch => { ch with status := .kAdded }
    Act.emit (.epollCtl .add ch.fd ch.events)
  else if ch.isNoneEvent then
    Act.emit (.epollCtl .del ch.fd ch.events)
    Act.modify fun ch => { ch with status := .kDeleted }
  else
    Act.emit (.epollCtl .mod ch.fd ch.events)

/-- `Epoll::removeChannel`. -/
def removeChannel : Act Abort (Effect β) Channel Unit := do
  let ch ← Act.get
  Act.emit (.recycle ch.fd)
  Act.emit (.close ch.fd)
  if ch.status = .kAdded then
    Act.emit (.epollCtl .del ch.fd ch.events)
  Act.modify fun ch => { ch with status := .kNew }

def update : Act Abort (Effect β) Channel Unit := do
  Act.modify fun ch => { ch with addedToLoop := true }
  updateChannel

def remove : Act Abort (Effect β) Channel Unit := do
  let ch ← Act.get
  Act.check .assertion (ch.isNoneEvent = true)
  Act.modify fun ch => { ch with addedToLoop := false }
  removeChannel

def enableEvents (events : BitVec 32) : Act Abort (Effect β) Channel Unit := do
  Act.modify fun ch => { ch with events := ch.events ||| events }
  update

def disableEvents (events : BitVec 32) : Act Abort (Effect β) Channel Unit := do
  Act.modify fun ch => { ch with events := ch.events &&& ~~~events }
  update

def disableAll : Act Abort (Effect β) Channel Unit := do
  Act.modify fun ch => { ch with events := kNoneEvent }
  update

def channelReset (socketId : ℤ) (_ : Channel) : Channel := init socketId

def setRevents (revents : BitVec 32) (ch : Channel) : Channel := { ch with revents := revents }

/-! ## The update of a channel in closed form -/

/-- The operation `updateChannel` asks of the kernel. -/
def nextOp (ch : Channel) : EpollOp :=
  if ch.status = .kAdded then (if ch.isNoneEvent then .del else .mod) else .add

/-- The status `updateChannel` leaves. -/
def nextStatus (ch : Channel) : Status :=
  if ch.status = .kAdded ∧ ch.isNoneEvent then .kDeleted else .kAdded

/-- The `epoll_ctl` made by `updateChannel`. -/
def updateCall (ch : Channel) : Effect β := .epollCtl ch.nextOp ch.fd ch.events

/-- The channel after `update`. -/
def updated (ch : Channel) : Channel :=
  { ch with addedToLoop := true, status := ch.nextStatus }

theorem update_apply (ch : Channel) :
    (update : Act Abort (Effect β) Channel Unit) ch =
      ⟨.ok (), ch.updated, [ch.updateCall]⟩ := by
  rcases ch with ⟨fd, events, revents, status, handling, added⟩
  simp only [update, updateChannel, Act.modify_bind, Act.get_bind, updateCall, updated, nextOp,
    nextStatus]
  cases status
  · rfl
  · by_cases h : isNoneEvent ⟨fd, events, revents, .kAdded, handling, true⟩
    · have h' : isNoneEvent ⟨fd, events, revents, .kAdded, handling, added⟩ := h
      simp [h, h']
    · have h' : ¬isNoneEvent ⟨fd, events, revents, .kAdded, handling, added⟩ := h
      simp [h, h']
  · rfl

theorem enableEvents_apply (events : BitVec 32) (ch : Channel) :
    (enableEvents events : Act Abort (Effect β) Channel Unit) ch =
      (update : Act Abort (Effect β) Channel Unit) { ch with events := ch.events ||| events } :=
  rfl

theorem disableEvents_apply (events : BitVec 32) (ch : Channel) :
    (disableEvents events : Act Abort (Effect β) Channel Unit) ch =
      (update : Act Abort (Effect β) Channel Unit)
        { ch with events := ch.events &&& ~~~events } := rfl

theorem disableAll_apply (ch : Channel) :
    (disableAll : Act Abort (Effect β) Channel Unit) ch =
      (update : Act Abort (Effect β) Channel Unit) { ch with events := kNoneEvent } := rfl

/-! ## The interests in the mask -/

theorem isWriting_eq (ch : Channel) : ch.isWriting = ch.events.getLsbD 2 := by
  have h : kWriteEvent = BitVec.twoPow 32 2 := by decide
  have h₀ : BitVec.twoPow 32 2 ≠ 0 := by decide
  rw [isWriting, h, BitVec.and_twoPow]
  cases ch.events.getLsbD 2
  · simp
  · simpa using h₀

@[simp] theorem isWriting_init (fd : ℤ) : (init fd).isWriting = false := by
  simp [isWriting_eq, init]

@[simp] theorem isWriting_updated (ch : Channel) : ch.updated.isWriting = ch.isWriting := rfl

theorem isWriting_enable_write (ch : Channel) :
    isWriting { ch with events := ch.events ||| kWriteEvent } = true := by
  rw [isWriting_eq, BitVec.getLsbD_or, show kWriteEvent.getLsbD 2 = true by decide, Bool.or_true]

theorem isWriting_disable_write (ch : Channel) :
    isWriting { ch with events := ch.events &&& ~~~kWriteEvent } = false := by
  rw [isWriting_eq, BitVec.getLsbD_and, BitVec.getLsbD_not,
    show kWriteEvent.getLsbD 2 = true by decide]
  simp

theorem isWriting_enable_read (ch : Channel) :
    isWriting { ch with events := ch.events ||| kReadEventLT } = ch.isWriting := by
  rw [isWriting_eq, isWriting_eq, BitVec.getLsbD_or,
    show kReadEventLT.getLsbD 2 = false by decide, Bool.or_false]

theorem isWriting_disable_read (ch : Channel) :
    isWriting { ch with events := ch.events &&& ~~~kReadEventLT } = ch.isWriting := by
  rw [isWriting_eq, isWriting_eq, BitVec.getLsbD_and, BitVec.getLsbD_not,
    show kReadEventLT.getLsbD 2 = false by decide]
  simp

end Channel

end Cannet.Net
