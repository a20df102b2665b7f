import Cannet.Foundations.Ledger
import Cannet.Net.Loop.Places

/-!
# The destruction of a loop

The destructors of an `EventLoop` and of what it is made of: its own channels, the poller and the
connections, of which it holds the last pointers. Whether a file is still attached to a connection
is not looked at.

The destructors check that a connection is closed and that its channel is out of the loop. Nothing
closes what is live when `loop()` returns (`destruction_safe_iff`). They also close descriptors
that `removeChannel` has closed before (`descriptors_never_closed_once`).
-/

namespace Cannet.Net

open Foundations EventLoop

variable {β : Type}

/-- An `EventLoop`: what it holds of connections, and its own descriptors with their channels. -/
structure LoopObject (β : Type) where
  loop : EventLoop β
  epollFd : ℤ
  timerFd : ℤ
  timerFdChannel : Channel
  wakeupFd : ℤ
  wakeupChannel : Channel

/-- A call on it. -/
abbrev ObjectAct (β α : Type) := Act Abort (Effect β) (LoopObject β) α

/-- `Channel::~Channel`. -/
def Channel.destroy : Act Abort (Effect β) Channel Unit := do
  let ch ← Act.get
  Act.check .assertion (ch.eventHandling = false)
  Act.check .assertion (ch.addedToLoop = false)
  Act.emit (.close ch.fd)

/-- `TcpConnection::~TcpConnection`. -/
def TcpConnection.destroy : Conn β Unit := do
  let c ← Act.get
  Act.check .assertion (c.state = .kDisconnected)
  onChannel Channel.destroy

/-- `connectionsPool.emplace_back(std::move(connections_[fd]))`. -/
def EventLoop.recycle (fd : ℤ) (s : EventLoop β) : EventLoop β :=
  { s with
    connectionsPool := s.connectionsPool ++ [s.connections fd]
    connections := Function.update s.connections fd none }

namespace LoopObject

/-- What `removeChannel` of a channel of the loop's own does to the loop. -/
def perform (s : LoopObject β) : Effect β → LoopObject β
  | .recycle fd => { s with loop := s.loop.recycle fd }
  | _ => s

/-- A call on a channel of the loop's own. -/
def onOwn (view : LoopObject β → Channel) (put : Channel → LoopObject β → LoopObject β)
    (x : Act Abort (Effect β) Channel Unit) : ObjectAct β Unit := fun s =>
  let o := x (view s)
  ⟨o.val, o.trace.foldl perform (put o.state s), o.trace⟩

def onTimerFdChannel (x : Act Abort (Effect β) Channel Unit) : ObjectAct β Unit :=
  onOwn (·.timerFdChannel) (fun ch s => { s with timerFdChannel := ch }) x

def onWakeupChannel (x : Act Abort (Effect β) Channel Unit) : ObjectAct β Unit :=
  onOwn (·.wakeupChannel) (fun ch s => { s with wakeupChannel := ch }) x

/-- What the constructors of `TimerManager` and `EventLoop` do with their channels. -/
def construct : ObjectAct β Unit := do
  onTimerFdChannel (Channel.enableEvents kReadEventLT)
  onWakeupChannel (Channel.enableEvents kReadEventLT)

/-- A loop as its constructor leaves it, with the descriptors it was given. -/
def init [Inhabited β] (epollFd timerFd wakeupFd : ℤ) : LoopObject β :=
  (construct ⟨.start, epollFd, timerFd, .init timerFd, wakeupFd, .init wakeupFd⟩).state

/-! ## The destructors -/

def destroyConnection (i : ℕ) : ObjectAct β Unit :=
  Act.zoom (fun s => s.loop.conn i)
    (fun c s => { s with loop := { s.loop with conn := Function.update s.loop.conn i c } })
    TcpConnection.destroy

/-- A pointer of the loop to a connection, given up. -/
def resetPtr : Option ℕ → ObjectAct β Unit
  | some i => destroyConnection i
  | none => pure ()

/-- `TimerManager::~TimerManager`, and the destruction of its channel. -/
def destroyTimerManager : ObjectAct β Unit := do
  onTimerFdChannel Channel.disableAll
  onTimerFdChannel Channel.remove
  let s ← Act.get
  Act.emit (.close s.timerFd)
  onTimerFdChannel Channel.destroy

/-- `Epoll::~Epoll`, which goes through `connections_` in the order of `keys`, and the destruction
of `connectionsPool`. -/
def destroyEpoll (keys : List ℤ) : ObjectAct β Unit := do
  let s ← Act.get
  keys.forM fun fd => resetPtr (s.loop.connections fd)
  Act.emit (.close s.epollFd)
  s.loop.connectionsPool.forM resetPtr

/-- `EventLoop::~EventLoop`, and the destruction of its members, the last one first. -/
def destroy (keys : List ℤ) : ObjectAct β Unit := do
  onWakeupChannel Channel.disableAll
  onWakeupChannel Channel.remove
  let s ← Act.get
  Act.emit (.close s.wakeupFd)
  onWakeupChannel Channel.destroy
  destroyTimerManager
  destroyEpoll keys

/-! ## The loop's own channels -/

end LoopObject

namespace Channel

variable {ch : Channel}

/-- A channel that is out of the loop. -/
theorem destroy_apply (hidle : ch.eventHandling = false) (hout : ch.addedToLoop = false) :
    (destroy : Act Abort (Effect β) Channel Unit) ch = ⟨.ok (), ch, [.close ch.fd]⟩ := by
  rw [destroy, Act.get_bind, Act.check_pos _ hidle, Act.pure_bind, Act.check_pos _ hout]
  rfl

theorem disableAll_added (hadded : ch.status = .kAdded) :
    (disableAll : Act Abort (Effect β) Channel Unit) ch =
      ⟨.ok (), ch.disabled, [.epollCtl .del ch.fd kNoneEvent]⟩ := by
  rw [disableAll_apply, update_apply]
  simp [disabled, updateCall, nextOp, isNoneEvent, hadded]

theorem remove_disabled (hadded : ch.status = .kAdded) :
    (remove : Act Abort (Effect β) Channel Unit) ch.disabled =
      ⟨.ok (), ch.disabled.removed, [.recycle ch.fd, .close ch.fd]⟩ := by
  rw [remove_apply ch.isNoneEvent_disabled, removeCalls]
  simp [disabled, updated, nextStatus, isNoneEvent, hadded]

end Channel

namespace LoopObject

variable {s : LoopObject β}

theorem onOwn_apply {view : LoopObject β → Channel} {put : Channel → LoopObject β → LoopObject β}
    {x : Act Abort (Effect β) Channel Unit} {ch : Channel} {es : List (Effect β)}
    {s' : LoopObject β} (h : x (view s) = ⟨.ok (), ch, es⟩)
    (hs : es.foldl perform (put ch s) = s') : onOwn view put x s = ⟨.ok (), s', es⟩ := by
  rw [onOwn, h, ← hs]

/-- What is done to the descriptor of a channel of the loop's own when it is destroyed. -/
def ownCalls (fd : ℤ) (ch : Channel) : List (Effect β) :=
  [.epollCtl .del ch.fd kNoneEvent, .recycle ch.fd, .close ch.fd, .close fd, .close ch.fd]

theorem destroyTimerManager_apply (hadded : s.timerFdChannel.status = .kAdded)
    (hidle : s.timerFdChannel.eventHandling = false) :
    destroyTimerManager s =
      ⟨.ok (), { s with
        loop := s.loop.recycle s.timerFdChannel.fd
        timerFdChannel := s.timerFdChannel.disabled.removed },
        ownCalls s.timerFd s.timerFdChannel⟩ := by
  let s₁ : LoopObject β := { s with timerFdChannel := s.timerFdChannel.disabled }
  let s₂ : LoopObject β :=
    { s with
      loop := s.loop.recycle s.timerFdChannel.fd
      timerFdChannel := s.timerFdChannel.disabled.removed }
  have hdisable : onTimerFdChannel Channel.disableAll s =
      ⟨.ok (), s₁, [.epollCtl .del s.timerFdChannel.fd kNoneEvent]⟩ :=
    onOwn_apply (Channel.disableAll_added hadded) rfl
  have hremove : onTimerFdChannel Channel.remove s₁ =
      ⟨.ok (), s₂, [.recycle s.timerFdChannel.fd, .close s.timerFdChannel.fd]⟩ :=
    onOwn_apply (Channel.remove_disabled hadded) rfl
  have hdestroy : onTimerFdChannel Channel.destroy s₂ =
      ⟨.ok (), s₂, [.close s.timerFdChannel.fd]⟩ :=
    onOwn_apply (Channel.destroy_apply hidle rfl) rfl
  rw [destroyTimerManager, Act.bind_ok hdisable, Act.bind_ok hremove, Act.get_bind, Act.emit_bind,
    hdestroy]
  rfl

theorem destroy_apply (keys : List ℤ) (hwakeup : s.wakeupChannel.status = .kAdded)
    (hidleWakeup : s.wakeupChannel.eventHandling = false)
    (htimer : s.timerFdChannel.status = .kAdded)
    (hidleTimer : s.timerFdChannel.eventHandling = false) :
    destroy keys s =
      (destroyEpoll keys { s with
        loop := (s.loop.recycle s.wakeupChannel.fd).recycle s.timerFdChannel.fd
        wakeupChannel := s.wakeupChannel.disabled.removed
        timerFdChannel := s.timerFdChannel.disabled.removed }).after
        (ownCalls s.wakeupFd s.wakeupChannel ++ ownCalls s.timerFd s.timerFdChannel) := by
  let s₁ : LoopObject β := { s with wakeupChannel := s.wakeupChannel.disabled }
  let s₂ : LoopObject β :=
    { s with
      loop := s.loop.recycle s.wakeupChannel.fd
      wakeupChannel := s.wakeupChannel.disabled.removed }
  have hdisable : onWakeupChannel Channel.disableAll s =
      ⟨.ok (), s₁, [.epollCtl .del s.wakeupChannel.fd kNoneEvent]⟩ :=
    onOwn_apply (Channel.disableAll_added hwakeup) rfl
  have hremove : onWakeupChannel Channel.remove s₁ =
      ⟨.ok (), s₂, [.recycle s.wakeupChannel.fd, .close s.wakeupChannel.fd]⟩ :=
    onOwn_apply (Channel.remove_disabled hwakeup) rfl
  have hdestroy : onWakeupChannel Channel.destroy s₂ =
      ⟨.ok (), s₂, [.close s.wakeupChannel.fd]⟩ :=
    onOwn_apply (Channel.destroy_apply hidleWakeup rfl) rfl
  have hmanager := destroyTimerManager_apply (s := s₂) htimer hidleTimer
  rw [destroy, Act.bind_ok hdisable, Act.bind_ok hremove, Act.get_bind, Act.emit_bind,
    Act.bind_ok hdestroy, Act.bind_ok hmanager]
  rfl

end LoopObject

/-! ## The connections -/

namespace TcpConnection

/-- A connection that may be destroyed: closed, and its channel out of the loop. -/
abbrev Destructible (c : TcpConnection β) : Prop :=
  c.state = .kDisconnected ∧ c.channel.addedToLoop = false

/-- The destructor of a connection that no event is being handled for. -/
theorem destroy_apply {c : TcpConnection β} (hidle : c.channel.eventHandling = false) :
    destroy c =
      if c.Destructible then
        ⟨.ok (), c, [.close c.channel.fd]⟩
      else ⟨.error .assertion, c, []⟩ := by
  rw [destroy, Act.get_bind]
  by_cases hs : c.state = .kDisconnected
  · rw [Act.check_pos _ hs, Act.pure_bind]
    by_cases hout : c.channel.addedToLoop = false
    · rw [if_pos ⟨hs, hout⟩]
      exact onChannel_apply (Channel.destroy_apply hidle hout)
    · have hfails : (Channel.destroy : Act Abort (Effect β) Channel Unit) c.channel =
          ⟨.error .assertion, c.channel, []⟩ := by
        rw [Channel.destroy, Act.get_bind, Act.check_pos _ hidle, Act.pure_bind,
          Act.check_neg _ hout]
        rfl
      rw [if_neg fun h => hout h.2]
      exact onChannel_apply hfails
  · rw [Act.check_neg _ hs, if_neg fun h => hs h.1]
    rfl

end TcpConnection

namespace LoopObject

variable {s : LoopObject β}

theorem destroyConnection_looks {i : ℕ} (hidle : (s.loop.conn i).channel.eventHandling = false) :
    (destroyConnection i s).state = s ∧
      ((destroyConnection i s).val = .ok () ↔ (s.loop.conn i).Destructible) := by
  have hstate : (destroyConnection i s).state =
      { s with loop := { s.loop with
        conn :=
          Function.update s.loop.conn i (TcpConnection.destroy (s.loop.conn i)).state } } := rfl
  have hval : (destroyConnection i s).val = (TcpConnection.destroy (s.loop.conn i)).val := rfl
  rw [hstate, hval, TcpConnection.destroy_apply hidle]
  by_cases hc : (s.loop.conn i).Destructible
  · rw [if_pos hc, Function.update_eq_self]
    exact ⟨rfl, fun _ => hc, fun _ => rfl⟩
  · rw [if_neg hc, Function.update_eq_self]
    exact ⟨rfl, fun h => (by cases h), fun h => absurd h hc⟩

theorem resetPtr_looks (conn : Option ℕ)
    (hidle : ∀ i, conn = some i → (s.loop.conn i).channel.eventHandling = false) :
    (resetPtr conn s).state = s ∧
      ((resetPtr conn s).val = .ok () ↔ ∀ i, conn = some i → (s.loop.conn i).Destructible) := by
  cases conn with
  | none => exact ⟨rfl, fun _ i hi => (by cases hi), fun _ => rfl⟩
  | some i =>
    obtain ⟨hstate, hval⟩ := destroyConnection_looks (hidle i rfl)
    refine ⟨hstate, hval.trans ⟨fun hc j hj => ?_, fun h => h i rfl⟩⟩
    obtain rfl := Option.some.inj hj
    exact hc

end LoopObject

/-! ## What the poller refers to -/

/-- The loop has a pointer to connection `i`. -/
def EventLoop.Refers (s : EventLoop β) (i : ℕ) : Prop :=
  (∃ fd, s.connections fd = some i) ∨ some i ∈ s.connectionsPool

theorem EventLoop.refers_recycle (s : EventLoop β) (fd : ℤ) (i : ℕ) :
    (s.recycle fd).Refers i ↔ s.Refers i := by
  constructor
  · rintro (⟨fd', hfd'⟩ | hmem)
    · exact .inl ⟨fd', (eq_of_update_none hfd').2⟩
    · rcases List.mem_append.1 hmem with hmem | hmem
      · exact .inr hmem
      · exact .inl ⟨fd, (List.mem_singleton.1 hmem).symm⟩
  · rintro (⟨fd', hfd'⟩ | hmem)
    · by_cases heq : fd' = fd
      · subst heq
        exact .inr (List.mem_append_right _ (by rw [hfd']; exact List.mem_cons_self))
      · exact .inl ⟨fd', (Function.update_of_ne heq _ _).trans hfd'⟩
    · exact .inr (List.mem_append_left _ hmem)

/-- The loop refers to the connections it has made. -/
theorem Placed.refers_iff {s : EventLoop β} (h : Placed s) {i : ℕ} : s.Refers i ↔ i < s.made := by
  constructor
  · rintro (⟨fd, hfd⟩ | hmem)
    · exact h.heldObj fd i hfd
    · obtain ⟨j, hj, hmade⟩ := h.poolObj _ hmem
      rwa [Option.some.inj hj]
  · intro hi
    by_cases hlive : (s.conn i).Live
    · exact .inl ⟨_, h.held_key hi hlive⟩
    · have honce := (h.keeps i hi hlive).once
      exact .inr (List.count_pos_iff.1 (by omega))

/-- What is in `connections_` is there under the descriptor of a connection that was made. -/
theorem Placed.covered {s : EventLoop β} (h : Placed s) (fd : ℤ) (hfd : s.connections fd ≠ none) :
    fd ∈ (List.range s.made).map fun i => (s.conn i).sockFd := by
  obtain ⟨i, hi⟩ := Option.ne_none_iff_exists'.1 hfd
  have hmade := h.heldObj fd i hi
  have hlive : (s.conn i).Live := by
    by_contra hdead
    exact (h.keeps i hmade hdead).key fd hi
  rw [((h.holds i hmade hlive).key fd).1 hi]
  exact List.mem_map_of_mem (List.mem_range.2 hmade)

/-- **The destruction of the poller** passes the assertions when every connection it refers to may
be destroyed. -/
theorem LoopObject.destroyEpoll_val_iff {s : LoopObject β} {keys : List ℤ}
    (hkeys : ∀ fd, s.loop.connections fd ≠ none → fd ∈ keys)
    (hidle : ∀ i, s.loop.Refers i → (s.loop.conn i).channel.eventHandling = false) :
    (destroyEpoll keys s).val = .ok () ↔ ∀ i, s.loop.Refers i → (s.loop.conn i).Destructible := by
  have hreset := fun fd => resetPtr_looks (s.loop.connections fd)
    fun i hi => hidle i (.inl ⟨fd, hi⟩)
  have hpool : ∀ conn ∈ s.loop.connectionsPool, (resetPtr conn s).state = s ∧
      ((resetPtr conn s).val = .ok () ↔ ∀ i, conn = some i → (s.loop.conn i).Destructible) :=
    fun conn hmem => resetPtr_looks conn fun i hi => hidle i (.inr (hi ▸ hmem))
  obtain ⟨hstate, hval⟩ := Act.forM_looks (l := keys)
    (f := fun fd => resetPtr (s.loop.connections fd)) fun fd _ => (hreset fd).1
  obtain ⟨-, hvalPool⟩ := Act.forM_looks (l := s.loop.connectionsPool) (f := resetPtr)
    fun conn hmem => (hpool conn hmem).1
  rw [destroyEpoll, Act.get_bind, Act.bind_ok_iff, hstate, hval, Act.emit_bind, Outcome.val_after,
    hvalPool]
  constructor
  · rintro ⟨hheld, hpooled⟩ i (⟨fd, hfd⟩ | hmem)
    · have hmem : fd ∈ keys := hkeys fd (by rw [hfd]; exact Option.some_ne_none i)
      exact (hreset fd).2.1 (hheld fd hmem) i hfd
    · exact (hpool _ hmem).2.1 (hpooled _ hmem) i rfl
  · intro h
    refine ⟨fun fd _ => (hreset fd).2.2 fun i hi => h i (.inl ⟨fd, hi⟩), fun conn hmem => ?_⟩
    exact (hpool conn hmem).2.2 fun i hi => h i (.inr (hi ▸ hmem))

/-! ## Every run -/

open LoopObject

section Runs

variable [Inhabited β] {calls : List (LoopCall β)} {s : EventLoop β}

/-- The whole of a loop whose connections are those of `s`. -/
def LoopObject.of (epollFd timerFd wakeupFd : ℤ) (s : EventLoop β) : LoopObject β :=
  { (LoopObject.init epollFd timerFd wakeupFd : LoopObject β) with loop := s }

/-- The destruction of a loop with the connections of `s`. -/
theorem LoopObject.destroy_of (keys : List ℤ) (epollFd timerFd wakeupFd : ℤ) (s : EventLoop β) :
    ∃ object : LoopObject β, object.loop = (s.recycle wakeupFd).recycle timerFd ∧
      destroy keys (.of epollFd timerFd wakeupFd s) = (destroyEpoll keys object).after
        (ownCalls wakeupFd (Channel.init wakeupFd).readingOn ++
          ownCalls timerFd (Channel.init timerFd).readingOn) :=
  ⟨_, rfl, destroy_apply keys rfl rfl rfl rfl⟩

/-- **The destruction of a loop passes its assertions** exactly when every connection it has made
is closed and its channel has not been put back into the loop: after every run, in which sockets
are given to connections only while no live one has them, and whatever the order of
`connections_`. -/
theorem destruction_safe_iff (h : Run LoopOp.exec Scheduled EventLoop.start calls s)
    (hfree : ∀ call ∈ calls, AcceptsFree call) (epollFd timerFd wakeupFd : ℤ) {keys : List ℤ}
    (hkeys : ∀ fd, s.connections fd ≠ none → fd ∈ keys) :
    (destroy keys (.of epollFd timerFd wakeupFd s)).val = .ok () ↔
      ∀ i < s.made, (s.conn i).state = .kDisconnected ∧
        (s.conn i).channel.addedToLoop = false := by
  have hplaced := placed_of_run h hfree
  obtain ⟨object, hloop, hdestroy⟩ := destroy_of keys epollFd timerFd wakeupFd s
  have hconn : object.loop.conn = s.conn := by rw [hloop]; rfl
  have hrefers : ∀ i, object.loop.Refers i ↔ i < s.made := fun i => by
    rw [hloop, refers_recycle, refers_recycle, hplaced.refers_iff]
  have hcovered : ∀ fd, object.loop.connections fd ≠ none → fd ∈ keys := fun fd hfd => by
    refine hkeys fd fun hnone => ?_
    obtain ⟨i, hi⟩ := Option.ne_none_iff_exists'.1 hfd
    rw [hloop] at hi
    have hsome := (eq_of_update_none (eq_of_update_none hi).2).2
    rw [hnone] at hsome
    cases hsome
  rw [hdestroy, Outcome.val_after, destroyEpoll_val_iff hcovered fun i hi => ?_]
  · simp only [hrefers, hconn, TcpConnection.Destructible]
  · rw [hconn]
    exact (standing_of_run h ((hrefers i).1 hi)).idle

end Runs

/-- Two connections are closed by their peers, and the loop is destroyed. -/
theorem destruction_safe_iff_closed :
    ∃ calls s keys, Run (LoopOp.exec (β := ℕ)) Scheduled EventLoop.start calls s ∧
      ((destroy keys (.of 3 4 6 s)).val = .ok () ↔
        ∀ i < s.made, (s.conn i).state = .kDisconnected ∧
          (s.conn i).channel.addedToLoop = false) ∧
      (destroy keys (.of 3 4 6 s)).returned = true := by
  have hrun : Run (LoopOp.exec (β := ℕ)) Scheduled EventLoop.start _ _ :=
    run_replay [.newConnection 5 (some 0) (some 1) none, .newConnection 7 (some 0) (some 1) none,
      .swapFunctors, .runFunctor (.ok 0) (.ok 0), .runFunctor (.ok 0) (.ok 0),
      .handleEvent 0 (.readCallback (.ok [])), .handleEvent 1 (.readCallback (.ok []))]
      (by decide +kernel)
  have hplaced := placed_of_run hrun (by decide +kernel)
  exact ⟨_, _, _, hrun, destruction_safe_iff hrun (by decide +kernel) 3 4 6 hplaced.covered,
    by decide +kernel⟩

/-- A loop is destroyed with a connection that is live. -/
theorem destruction_fails_live :
    ¬∀ (calls : List (LoopCall ℕ)) (s : EventLoop ℕ),
      Run LoopOp.exec Scheduled EventLoop.start calls s → (∀ call ∈ calls, AcceptsFree call) →
        ∀ (epollFd timerFd wakeupFd : ℤ) (keys : List ℤ),
          (∀ fd, s.connections fd ≠ none → fd ∈ keys) →
            (destroy keys (.of epollFd timerFd wakeupFd s)).val = .ok () := by
  intro h
  have hrun : Run (LoopOp.exec (β := ℕ)) Scheduled EventLoop.start _ _ :=
    run_replay [.newConnection 5 (some 0) (some 1) none, .swapFunctors,
      .runFunctor (.ok 0) (.ok 0)] (by decide +kernel)
  have hplaced := placed_of_run hrun (by decide +kernel)
  have hok := h _ _ hrun (by decide +kernel) 3 4 6 _ hplaced.covered
  have hreturned := Outcome.returned_iff.2 hok
  revert hreturned
  decide +kernel

/-! ## The descriptors -/

/-- What an effect does with a descriptor that is the loop's own: a socket is taken when a
connection is made or reset for it. -/
def Effect.deed : Effect β → Option (Deed ℤ)
  | .setKeepAlive fd => some (.take fd)
  | .close fd => some (.close fd)
  | _ => none

/-- What a loop has done with its descriptors, from its construction to the end of its destruction,
after the calls that led to `s`. -/
def loopDeeds [Inhabited β] (epollFd timerFd wakeupFd : ℤ) (keys : List ℤ)
    (calls : List (LoopCall β)) (s : EventLoop β) : List (Deed ℤ) :=
  [.take epollFd, .take timerFd, .take wakeupFd] ++
    (traceOf calls).filterMap (fun e => e.effect.deed) ++
      (destroy keys (.of epollFd timerFd wakeupFd s)).trace.filterMap Effect.deed

/-- **A loop never closes its descriptors once**: the wakeup descriptor has been closed by
`removeChannel` when `~EventLoop` closes it, whatever the loop has done. -/
theorem descriptors_never_closed_once [Inhabited β] (calls : List (LoopCall β)) (s : EventLoop β)
    (epollFd timerFd wakeupFd : ℤ) (keys : List ℤ) :
    ¬ClosedOnce (loopDeeds epollFd timerFd wakeupFd keys calls s) := by
  obtain ⟨object, -, hdestroy⟩ := destroy_of keys epollFd timerFd wakeupFd s
  have hclosings : (destroy keys (.of epollFd timerFd wakeupFd s)).trace.filterMap Effect.deed =
      .close wakeupFd :: .close wakeupFd ::
        ([.close wakeupFd, .close timerFd, .close timerFd, .close timerFd] ++
          (destroyEpoll keys object).trace.filterMap Effect.deed) := by
    rw [hdestroy]
    rfl
  have hdeeds : loopDeeds epollFd timerFd wakeupFd keys calls s =
      ([.take epollFd, .take timerFd, .take wakeupFd] ++
        (traceOf calls).filterMap (fun e => e.effect.deed)) ++
        .close wakeupFd :: .close wakeupFd ::
          ([.close wakeupFd, .close timerFd, .close timerFd, .close timerFd] ++
            (destroyEpoll keys object).trace.filterMap Effect.deed) := by
    rw [loopDeeds, hclosings]
  exact ClosedOnce.not_twice hdeeds

/-- The socket of a connection that its peer has closed is closed once more when the loop is
destroyed: descriptor 5. -/
theorem socket_closed_again :
    ¬∀ (calls : List (LoopCall ℕ)) (s : EventLoop ℕ),
      Run LoopOp.exec Scheduled EventLoop.start calls s → (∀ call ∈ calls, AcceptsFree call) →
        ∀ (epollFd timerFd wakeupFd : ℤ) (keys : List ℤ),
          (∀ fd, s.connections fd ≠ none → fd ∈ keys) →
            ClosedOnce (loopDeeds epollFd timerFd wakeupFd keys calls s) := by
  intro h
  have hrun : Run (LoopOp.exec (β := ℕ)) Scheduled EventLoop.start _ _ :=
    run_replay [.newConnection 5 (some 0) (some 1) none, .swapFunctors,
      .runFunctor (.ok 0) (.ok 0), .handleEvent 0 (.readCallback (.ok []))] (by decide +kernel)
  have hplaced := placed_of_run hrun (by decide +kernel)
  have hclosed := h _ _ hrun (by decide +kernel) 3 4 6 _ hplaced.covered
  have howned := hclosed.owned [.take 3, .take 4, .take 6, .take 5, .close 5, .close 6, .close 6,
    .close 6, .close 4, .close 4, .close 4, .close 3] 5 [] (by decide +kernel)
  revert howned
  decide

end Cannet.Net
