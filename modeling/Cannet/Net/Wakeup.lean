import Cannet.Foundations.Threads
import Cannet.Net.Channel
import Mathlib.Algebra.Ring.Nat

/-!
# The thread of an event loop, and the threads that call it

`EventLoopThread::threadFunc` makes an `EventLoop`, runs the initial callback on it, publishes it
and calls `loop()`. Other threads append functors to it and stop it, and wake it through the
eventfd `wakeupFd_`; event handlers and functors do the same on the loop's own thread.

The threads take turns. A critical section of `mutex_` is one step, a write or read of the eventfd
is one, and so is a load or store of `quit_`. Between two of its steps a thread stands where its
`Phase` or its `Caller` says. What handlers and functors do beside calling the loop is left out.
-/

namespace Cannet.Net

open Foundations

/-- Where the loop's own thread is. -/
inductive Phase
  /-- In `callback_(&loop)`. -/
  | callback
  /-- The loop is published, `loop()` has not begun. -/
  | published
  /-- At `while (!quit_)`. -/
  | testing
  /-- In `epoll_wait`. -/
  | polling
  /-- Between two calls of `handleEvent`. -/
  | handling
  | inHandler
  /-- In `runFunctors`, before the swap. -/
  | swapping
  /-- In `runFunctors`, between two functors. -/
  | calling
  | inFunctor
  /-- `loop()` has returned. The loop is destroyed next. -/
  | returned
  deriving DecidableEq, Repr

/-- Where a thread is in its call of `queueInLoop` or `quit`. -/
inductive Caller
  | idle
  /-- In `queueInLoop`, past the critical section. -/
  | appended
  /-- In `quit`, past the store. -/
  | stored
  deriving DecidableEq, Repr

/-- What `epoll_wait` reports: the eventfd, or a channel with a handler of its own. -/
inductive ActiveChannel
  | wakeupChannel
  | channel
  deriving DecidableEq, Repr

/-- What the threads do that others see. -/
inductive LoopEvent (F : Type)
  | appended (functor : F)
  | executed (functor : F)
  /-- `runInLoop` called the functor itself. -/
  | called (functor : F)
  /-- A call of `quit` returned. -/
  | quit
  deriving DecidableEq, Repr

/-- An event loop, its thread (`none`) and the threads that call it. -/
structure LoopThread (F T : Type) where
  phase : Phase
  looping : Bool
  quit : Bool
  callingFunctors : Bool
  functors : List F
  /-- What is left of the functors that `runFunctors` has swapped out. -/
  running : List F
  activeChannels : List ActiveChannel
  /-- The counter of the eventfd. -/
  wakeupFd : ℕ
  caller : Option T → Caller

namespace LoopThread

variable {F T : Type}

/-- The loop has been constructed. -/
def start : LoopThread F T where
  phase := .callback
  looping := false
  quit := false
  callingFunctors := false
  functors := []
  running := []
  activeChannels := []
  wakeupFd := 0
  caller := fun _ => .idle

/-- The largest value of an eventfd's counter. -/
def eventfdMax : ℕ := 2 ^ 64 - 2

abbrev ThreadStep (F T : Type) := Step Abort (LoopEvent F) (LoopThread F T)

/-- The loop is still there. -/
def checkAlive : ThreadStep F T Unit := do
  let s ← Act.get
  Act.check (.fails .danglingReference) (s.phase ≠ .returned)

/-- `wakeup`. A write that would overflow the counter fails. -/
def wakeup : ThreadStep F T Unit := do
  checkAlive
  Act.modify fun s => { s with wakeupFd := min (s.wakeupFd + 1) eventfdMax }

def wakeupIf (condition : Bool) : ThreadStep F T Unit := if condition then wakeup else pure ()

/-- `handleRead`. The read of an eventfd resets its counter. -/
def handleRead : ThreadStep F T Unit := Act.modify fun s => { s with wakeupFd := 0 }

def isInLoopThread (t : Option T) : Bool := t.isNone

/-- The thread `t` is at `place` of a call. -/
def InCall (t : Option T) (place : Caller) (s : LoopThread F T) : Prop := s.caller t = place

instance (t : Option T) (place : Caller) : DecidablePred (InCall (F := F) t place) := fun _ =>
  inferInstanceAs (Decidable (_ = _))

section Calls

variable [DecidableEq T]

def setCaller (t : Option T) (place : Caller) : ThreadStep F T Unit :=
  Act.modify fun s => { s with caller := Function.update s.caller t place }

/-- The thread `t` can call the loop: another thread at any time, the loop's own from the initial
callback, a handler or a functor. -/
def MayCall (t : Option T) (s : LoopThread F T) : Prop :=
  s.caller t = .idle ∧
    (isInLoopThread t = true → s.phase = .callback ∨ s.phase = .inHandler ∨ s.phase = .inFunctor)

instance (t : Option T) : DecidablePred (MayCall (F := F) t) := fun _ =>
  inferInstanceAs (Decidable (_ ∧ (_ → _ ∨ _ ∨ _)))

/-- `queueInLoop`, up to the end of the critical section. -/
def queueInLoop (t : Option T) (functor : F) : ThreadStep F T Unit :=
  Act.await (MayCall t) do
    checkAlive
    Act.modify fun s => { s with functors := s.functors ++ [functor] }
    Act.emit (.appended functor)
    setCaller t .appended

/-- The rest of `queueInLoop`. -/
def queueInLoopEnd (t : Option T) : ThreadStep F T Unit :=
  Act.await (InCall t .appended) do
    let s ← Act.get
    wakeupIf (!isInLoopThread t || s.callingFunctors)
    setCaller t .idle

def runInLoop (t : Option T) (functor : F) : ThreadStep F T Unit :=
  if isInLoopThread t then Act.await (MayCall t) (Act.emit (.called functor))
  else queueInLoop t functor

/-- `quit`, up to the store. -/
def quitStore (t : Option T) : ThreadStep F T Unit :=
  Act.await (MayCall t) do
    checkAlive
    Act.modify fun s => { s with quit := true }
    setCaller t .stored

/-- The rest of `quit`. -/
def quitEnd (t : Option T) : ThreadStep F T Unit :=
  Act.await (InCall t .stored) do
    wakeupIf (!isInLoopThread t)
    setCaller t .idle
    Act.emit .quit

end Calls

/-! ## The loop's thread -/

/-- The loop's thread goes on from `p`. -/
def At (p : Phase) (s : LoopThread F T) : Prop := s.phase = p ∧ s.caller none = .idle

instance (p : Phase) : DecidablePred (At (F := F) (T := T) p) := fun _ =>
  inferInstanceAs (Decidable (_ ∧ _))

def goto (p : Phase) : ThreadStep F T Unit := Act.modify fun s => { s with phase := p }

/-- `loop_ = &loop`, after the initial callback. -/
def publish : ThreadStep F T Unit := Act.await (At .callback) (goto .published)

/-- `loop()`, up to its first test. -/
def enter : ThreadStep F T Unit :=
  Act.await (At .published) do
    let s ← Act.get
    Act.check (.fails .assertion) (s.looping = false)
    Act.modify fun s => { s with looping := true, quit := false }
    goto .testing

/-- `while (!quit_)`. -/
def test : ThreadStep F T Unit :=
  Act.await (At .testing) do
    let s ← Act.get
    if s.quit then
      Act.modify fun s => { s with looping := false }
      goto .returned
    else
      Act.modify fun s => { s with activeChannels := [] }
      goto .polling

/-- The channels that `epoll_wait` reports can be ready. -/
def Reports (active : List ActiveChannel) (s : LoopThread F T) : Prop :=
  At .polling s ∧ (.wakeupChannel ∈ active → 0 < s.wakeupFd)

instance (active : List ActiveChannel) : DecidablePred (Reports (F := F) (T := T) active) :=
  fun _ => inferInstanceAs (Decidable (_ ∧ (_ → _)))

/-- `epoll_wait` returns: with channels that are ready, or with none when a signal arrives. -/
def poll (active : List ActiveChannel) : ThreadStep F T Unit :=
  Act.await (Reports active) do
    Act.modify fun s => { s with activeChannels := active }
    goto .handling

/-- The next `handleEvent`, or `runFunctors` after the last. -/
def handleEvent : ThreadStep F T Unit :=
  Act.await (At .handling) do
    let s ← Act.get
    match s.activeChannels with
    | [] =>
      Act.modify fun s => { s with callingFunctors := true }
      goto .swapping
    | first :: rest =>
      Act.modify fun s => { s with activeChannels := rest }
      match first with
      | .wakeupChannel => handleRead
      | .channel => goto .inHandler

def handlerEnd : ThreadStep F T Unit := Act.await (At .inHandler) (goto .handling)

/-- `functors.swap(functors_)`. -/
def swapFunctors : ThreadStep F T Unit :=
  Act.await (At .swapping) do
    Act.modify fun s => { s with running := s.functors, functors := [] }
    goto .calling

/-- The next functor, or the end of `runFunctors`. -/
def callFunctor : ThreadStep F T Unit :=
  Act.await (At .calling) do
    let s ← Act.get
    match s.running with
    | [] =>
      Act.modify fun s => { s with callingFunctors := false }
      goto .testing
    | functor :: rest =>
      Act.modify fun s => { s with running := rest }
      Act.emit (.executed functor)
      goto .inFunctor

def functorEnd : ThreadStep F T Unit := Act.await (At .inFunctor) (goto .calling)

end LoopThread

/-! ## Steps -/

/-- A step, and the thread that makes it where that is not the loop's own. -/
inductive ThreadOp (F T : Type)
  | publish
  | enter
  | test
  | poll (active : List ActiveChannel)
  | handleEvent
  | handlerEnd
  | swapFunctors
  | callFunctor
  | functorEnd
  | queueInLoop (t : Option T) (functor : F)
  | queueInLoopEnd (t : Option T)
  | runInLoop (t : Option T) (functor : F)
  | quitStore (t : Option T)
  | quitEnd (t : Option T)

variable {F T : Type} [DecidableEq T]

def ThreadOp.exec : ThreadOp F T → LoopThread.ThreadStep F T Unit
  | publish => LoopThread.publish
  | enter => LoopThread.enter
  | test => LoopThread.test
  | poll active => LoopThread.poll active
  | handleEvent => LoopThread.handleEvent
  | handlerEnd => LoopThread.handlerEnd
  | swapFunctors => LoopThread.swapFunctors
  | callFunctor => LoopThread.callFunctor
  | functorEnd => LoopThread.functorEnd
  | queueInLoop t functor => LoopThread.queueInLoop t functor
  | queueInLoopEnd t => LoopThread.queueInLoopEnd t
  | runInLoop t functor => LoopThread.runInLoop t functor
  | quitStore t => LoopThread.quitStore t
  | quitEnd t => LoopThread.quitEnd t

/-- A step of a run. -/
abbrev ThreadCall (F T : Type) :=
  Call (ThreadOp F T) (Halt Abort) (LoopEvent F) (LoopThread F T)

end Cannet.Net
