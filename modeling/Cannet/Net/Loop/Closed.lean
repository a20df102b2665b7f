import Cannet.Net.Connection.Lifecycle
import Cannet.Net.Loop.Requests

/-!
# A connection that is closed

A user may still hold a connection when it is closed, and call its public functions. `send`,
`shutdown` and `forceClose` look at `state_` first and do nothing. `startRead`, `stopRead` and
`setTcpNoDelay` do not: they reach the poller or the socket through a descriptor number that is no
longer the connection's. As long as no step is such a call on the loop's thread, or the functor of
one (`SparesClosed`), a closed connection stays out of the poller (`AllOut.step`), and a step on it
touches nothing (`AllOut.inert_iff`).
-/

namespace Cannet.Net

open Foundations

variable {β : Type}

/-! ## What the kernel sees -/

/-- The interest set of a poller: the events each descriptor is registered with. -/
abbrev Interest := ℤ → Option (BitVec 32)

/-- The interest set after an effect. An `epoll_ctl` that the kernel refuses changes nothing; a
descriptor that is closed leaves the set. -/
def Effect.onInterest (set : Interest) : Effect β → Interest
  | .epollCtl .add fd events =>
    if set fd = none then Function.update set fd (some events) else set
  | .epollCtl .mod fd events =>
    if set fd = none then set else Function.update set fd (some events)
  | .epollCtl .del fd _ | .close fd => Function.update set fd none
  | _ => set

def Effect.isSystemCall : Effect β → Bool
  | .recycle _ | .connectionCallback _ | .messageCallback | .sendInLoop .. | .queueInLoop _ => false
  | _ => true

/-- The interest set after what the connections of a loop did. -/
def interestAfter (es : List (LifeEffect (Effect β))) (set : Interest) : Interest :=
  es.foldl (fun set e => e.effect.onInterest set) set

theorem interestAfter_eq {es : List (LifeEffect (Effect β))}
    (h : ∀ e ∈ es, e.effect.isSystemCall = false) (set : Interest) :
    interestAfter es set = set := by
  induction es generalizing set with
  | nil => rfl
  | cons e es ih =>
    have he := h e (by simp)
    have hsame : e.effect.onInterest set = set := by
      rcases e with ⟨_, _, effect⟩
      cases effect <;> first | rfl | cases he
    rw [interestAfter, List.foldl_cons, hsame]
    exact ih (fun e' he' => h e' (by simp [he'])) set

/-! ## Calls on a closed connection -/

/-- The channel is out of the poller. -/
def Channel.Out (ch : Channel) : Prop := ch.events = kNoneEvent ∧ ch.status = .kNew

/-- Whether a request leaves the closed connection `c` alone. -/
def Request.isSafe (c : TcpConnection β) : Request β → Bool
  | startRead onLoop => !onLoop
  | stopRead onLoop => !onLoop || !c.reading
  | setTcpNoDelay _ => false
  | _ => true

/-- Whether a functor that such a request queues leaves it alone. -/
def Functor.isSafe (c : TcpConnection β) : Functor β → Bool
  | .startReadInLoop => false
  | .stopReadInLoop => !c.reading
  | _ => true

/-- The functors that requests to a closed connection queue. -/
def Functor.isUserCall : Functor β → Bool
  | .sendInLoop _ | .startReadInLoop | .stopReadInLoop => true
  | _ => false

/-- What a call leaves of a closed connection, when it touches nothing. -/
structure TcpConnection.Untouched (c : TcpConnection β)
    (o : Outcome Abort (Effect β) (TcpConnection β) Unit) : Prop where
  state : o.state.state = c.state
  channel : o.state.channel = c.channel
  calls : ∀ e ∈ o.trace, e.isSystemCall = false

namespace TcpConnection

theorem Untouched.refl (c : TcpConnection β) (v : Except Abort Unit) :
    c.Untouched ⟨v, c, []⟩ := ⟨rfl, rfl, nofun⟩

theorem Untouched.single (c : TcpConnection β) {e : Effect β} (he : e.isSystemCall = false) :
    c.Untouched ⟨.ok (), c, [e]⟩ :=
  ⟨rfl, rfl, fun _ he' => List.mem_singleton.1 he' ▸ he⟩

theorem untouched_runInLoop (functor : Functor β) (call : Conn β Unit) (c : TcpConnection β) :
    c.Untouched (runInLoop false functor call c) := .single c rfl

variable {c : TcpConnection β}

theorem isReading_of_out (h : c.channel.Out) : c.channel.isReading = false := by
  rw [Channel.isReading, h.1]
  decide

theorem isWriting_of_out (h : c.channel.Out) : c.channel.isWriting = false := by
  rw [Channel.isWriting, h.1]
  decide

/-- A connection that starts reading goes to the poller. -/
theorem startReadInLoop_touches (h : ¬(c.reading = true ∧ c.channel.isReading = true)) :
    ∃ c' : TcpConnection β, ∃ e : Effect β, startReadInLoop c = ⟨.ok (), c', [e]⟩ ∧
      e.isSystemCall = true := by
  have hchannel : onChannel (Channel.enableEvents kReadEventLT) c = ⟨.ok (), _, _⟩ :=
    onChannel_apply (by rw [Channel.enableEvents_apply, Channel.update_apply])
  rw [startReadInLoop, Act.get_bind, Act.ite_apply, if_pos (not_and_or.1 h),
    Act.bind_ok hchannel]
  exact ⟨_, _, rfl, rfl⟩

/-- One that stops reading does so too, unless it had stopped before. -/
theorem stopReadInLoop_touches (h : c.reading = true ∨ c.channel.isReading = true) :
    ∃ c' : TcpConnection β, ∃ e : Effect β, stopReadInLoop c = ⟨.ok (), c', [e]⟩ ∧
      e.isSystemCall = true := by
  have hchannel : onChannel (Channel.disableEvents kReadEventLT) c = ⟨.ok (), _, _⟩ :=
    onChannel_apply (by rw [Channel.disableEvents_apply, Channel.update_apply])
  rw [stopReadInLoop, Act.get_bind, Act.ite_apply, if_pos h, Act.bind_ok hchannel]
  exact ⟨_, _, rfl, rfl⟩

theorem stopReadInLoop_stopped (h : c.channel.Out) (hreading : c.reading = false) :
    stopReadInLoop c = ⟨.ok (), c, []⟩ := by
  rw [stopReadInLoop, Act.get_bind, Act.ite_apply, if_neg (by simp [hreading, isReading_of_out h])]
  rfl

theorem sendInLoop_closed [Inhabited β] (w f : SysRet) (data : List β) (len : ℕ)
    (hs : c.state = .kDisconnected) :
    sendInLoop w f data len c = ⟨.ok (), c, [.sendInLoop data len]⟩ := by
  rw [sendInLoop, Act.emit_bind, Act.get_bind, Act.ite_apply, if_pos hs]
  rfl

variable [Inhabited β]

/-- **A safe request** to a closed connection touches nothing. -/
theorem request_untouched (hs : c.state = .kDisconnected) (h : c.channel.Out) {r : Request β}
    (hsafe : r.isSafe c = true) : c.Untouched (r.call c) := by
  cases r with
  | send onLoop message w f =>
    have hnot : ¬c.state = .kConnected := by simp [hs]
    rw [Request.call, send, Act.get_bind, Act.ite_apply, if_neg hnot, runInLoop, Act.ite_apply]
    split
    · rw [sendInLoop_closed w f _ _ hs]
      exact .single c rfl
    · exact .single c rfl
  | shutdown onLoop =>
    rw [Request.call, shutdown_apply, shuttingDown, shutdownCalls, if_neg (by simp [hs]),
      if_neg (by simp [hs])]
    exact .refl c _
  | forceClose =>
    rw [Request.call, forceClose_apply, forceClosing, forceCloseCalls, if_neg (by simp [hs]),
      if_neg (by simp [hs])]
    exact .refl c _
  | startRead onLoop =>
    cases onLoop with
    | false => exact untouched_runInLoop .startReadInLoop startReadInLoop c
    | true => cases hsafe
  | stopRead onLoop =>
    cases onLoop with
    | false => exact untouched_runInLoop .stopReadInLoop stopReadInLoop c
    | true =>
      have hstopped : stopReadInLoop c = ⟨.ok (), c, []⟩ :=
        stopReadInLoop_stopped h (by simpa [Request.isSafe] using hsafe)
      rw [Request.call, stopRead, runInLoop, Act.ite_apply, if_pos rfl, hstopped]
      exact .refl c _
  | setTcpNoDelay on => cases hsafe
  | setSendFile file => exact ⟨rfl, rfl, List.forall_mem_nil _⟩

/-- Any other one makes a system call. -/
theorem request_touches (h : c.channel.Out) {r : Request β} (hsafe : r.isSafe c = false) :
    ∃ e ∈ (r.call c).trace, e.isSystemCall = true := by
  cases r with
  | startRead onLoop =>
    cases onLoop with
    | false => cases hsafe
    | true =>
      have hnot : ¬(c.reading = true ∧ c.channel.isReading = true) := by simp [isReading_of_out h]
      obtain ⟨c', e, hcall, he⟩ := startReadInLoop_touches hnot
      rw [Request.call, startRead, runInLoop, Act.ite_apply, if_pos rfl, hcall]
      exact ⟨e, List.mem_singleton_self e, he⟩
  | stopRead onLoop =>
    cases onLoop with
    | false => cases hsafe
    | true =>
      obtain ⟨c', e, hcall, he⟩ :=
        stopReadInLoop_touches (.inl (by simpa [Request.isSafe] using hsafe))
      rw [Request.call, stopRead, runInLoop, Act.ite_apply, if_pos rfl, hcall]
      exact ⟨e, List.mem_singleton_self e, he⟩
  | setTcpNoDelay on => exact ⟨_, List.mem_singleton_self _, rfl⟩
  | _ => cases hsafe

/-- **A safe functor** queued by a request to a closed connection touches nothing. -/
theorem functor_untouched (hs : c.state = .kDisconnected) (h : c.channel.Out) (w f : SysRet)
    {g : Functor β} (huser : g.isUserCall = true) (hsafe : g.isSafe c = true) :
    c.Untouched (g.call w f c) := by
  cases g with
  | sendInLoop message =>
    cases message with
    | byValue message =>
      rw [Functor.call, sendInLoop_closed w f _ _ hs]
      exact .single c rfl
    | byReference => exact .refl c _
  | startReadInLoop => cases hsafe
  | stopReadInLoop =>
    have hstopped : stopReadInLoop c = ⟨.ok (), c, []⟩ :=
      stopReadInLoop_stopped h (by simpa [Functor.isSafe] using hsafe)
    rw [Functor.call, hstopped]
    exact .refl c _
  | _ => cases huser

theorem functor_touches (h : c.channel.Out) (w f : SysRet) {g : Functor β}
    (hsafe : g.isSafe c = false) : ∃ e ∈ (g.call w f c).trace, e.isSystemCall = true := by
  cases g with
  | startReadInLoop =>
    have hnot : ¬(c.reading = true ∧ c.channel.isReading = true) := by simp [isReading_of_out h]
    obtain ⟨c', e, hcall, he⟩ := startReadInLoop_touches hnot
    rw [Functor.call, hcall]
    exact ⟨e, List.mem_singleton_self e, he⟩
  | stopReadInLoop =>
    obtain ⟨c', e, hcall, he⟩ :=
      stopReadInLoop_touches (.inl (by simpa [Functor.isSafe] using hsafe))
    rw [Functor.call, hcall]
    exact ⟨e, List.mem_singleton_self e, he⟩
  | _ => cases hsafe

end TcpConnection

/-! ## The channel of a closed connection -/

/-- If the connection is closed, its channel is out of the poller. -/
def TcpConnection.ClosedOut (c : TcpConnection β) : Prop :=
  c.state = .kDisconnected → c.channel.Out

namespace TcpConnection

variable {c : TcpConnection β}

theorem Untouched.closedOut (h : c.ClosedOut)
    {o : Outcome Abort (Effect β) (TcpConnection β) Unit} (ho : c.Untouched o) :
    o.state.ClosedOut := by
  intro hs
  rw [ho.channel]
  exact h (ho.state.symm.trans hs)

/-- Nothing but closing a connection closes it. -/
theorem live_frame : CallFrame (β := β) fun _ c => c.state ≠ .kDisconnected where
  emit _ _ _ _ h := h
  channel _ _ _ h := h
  inputBuffer _ _ _ h := h
  outputBuffer _ _ _ h := h
  sendFile _ _ _ h := h
  reading _ _ _ h := h

/-- What leaves a live connection live. -/
theorem closedOut_of_keeps {x : Conn β Unit} (hx : x.Keeps fun _ c => c.state ≠ .kDisconnected)
    (hs : c.state ≠ .kDisconnected) : (x c).state.ClosedOut :=
  fun h => absurd h (hx [] c hs)

theorem closedOut_handleClose (hok : (handleClose c).val = .ok ()) :
    (handleClose c).state.ClosedOut := by
  have ho := handleClose_outcome c
  generalize handleClose c = o at ho hok ⊢
  cases ho with
  | refused hdead => cases hok
  | unset hlive hcb => cases hok
  | closed hlive hcb => exact fun _ => ⟨rfl, rfl⟩

theorem keeps_live_shutdown (onLoop : Bool) :
    (shutdown (β := β) onLoop).Keeps fun _ c => c.state ≠ .kDisconnected := by
  intro es c hs
  rw [shutdown_apply, shuttingDown]
  split
  · simp
  · exact hs

theorem keeps_live_forceClose :
    (forceClose (β := β)).Keeps fun _ c => c.state ≠ .kDisconnected := by
  intro es c hs
  rw [forceClose_apply, forceClosing]
  split
  · simp
  · exact hs

variable [Inhabited β]

theorem closedOut_request (h : c.ClosedOut) {r : Request β}
    (hsafe : c.state = .kDisconnected → r.isSafe c = true) : (r.call c).state.ClosedOut := by
  by_cases hs : c.state = .kDisconnected
  · exact (request_untouched hs (h hs) (hsafe hs)).closedOut h
  · exact closedOut_of_keeps
      (live_frame.keeps_request keeps_live_shutdown keeps_live_forceClose r) hs

theorem closedOut_functor (h : c.ClosedOut) (w f : SysRet) {g : Functor β}
    (hsafe : c.state = .kDisconnected → g.isSafe c = true)
    (hok : (g.call w f c).val = .ok ()) : (g.call w f c).state.ClosedOut := by
  by_cases hclosing : g = .forceCloseInLoop
  · subst hclosing
    rw [Functor.call, forceCloseInLoop, Act.get_bind, Act.ite_apply] at hok ⊢
    split
    · rename_i hlive
      rw [if_pos hlive] at hok
      exact closedOut_handleClose hok
    · exact h
  by_cases hs : c.state = .kDisconnected
  · by_cases huser : g.isUserCall = true
    · exact (functor_untouched hs (h hs) w f huser (hsafe hs)).closedOut h
    · cases g with
      | writeCompleteCallback =>
        rw [Functor.call, Act.get_bind, Act.ite_apply]
        split <;> exact h
      | shutdownInLoop =>
        rw [Functor.call, shutdownInLoop_apply]
        exact h
      | forceCloseInLoop => exact absurd rfl hclosing
      | _ => exact absurd rfl huser
  · exact closedOut_of_keeps (live_frame.keeps_functor w f g hclosing) hs

theorem closedOut_handleRead (h : c.ClosedOut) (r : ReadRet β)
    (hok : (handleRead r c).val = .ok ()) : (handleRead r c).state.ClosedOut := by
  cases r with
  | err e => exact h
  | ok received =>
    rw [handleRead, Act.get_bind, Act.emit_bind] at hok ⊢
    rw [Outcome.state_after]
    rw [Outcome.val_after] at hok
    cases hread : c.inputBuffer.readFd received with
    | none =>
      simp only [hread, Act.need_none, Act.abort_bind] at hok
      cases hok
    | some b =>
      have hin : ClosedOut { c with inputBuffer := b } := h
      simp only [hread, Act.need_some, Act.pure_bind, Act.modify_bind, Act.ite_apply] at hok ⊢
      split
      · rename_i hnil
        rw [if_pos hnil] at hok
        exact closedOut_handleClose hok
      · split <;> exact hin

omit [Inhabited β] in
theorem closedOut_handleWrite (h : c.ClosedOut) (r : SysRet) :
    (handleWrite r c).state.ClosedOut := by
  by_cases hs : c.state = .kDisconnected
  · have hoff : ¬c.channel.isWriting = true := by simp [isWriting_of_out (h hs)]
    rw [handleWrite.eq_def, Act.get_bind, Act.ite_apply, if_neg hoff]
    exact h
  · exact closedOut_of_keeps (live_frame.output.keeps_handleWrite r) hs

/-- Every callback of a channel leaves the connection live or out of the poller. -/
theorem closedOut_callback (h : c.ClosedOut) (callback : ChannelCallback β)
    (hok : (callback.call c).val = .ok ()) : (callback.call c).state.ClosedOut := by
  cases callback with
  | closeCallback => exact closedOut_handleClose hok
  | errorCallback => exact h
  | readCallback r => exact closedOut_handleRead h r hok
  | writeCallback r => exact closedOut_handleWrite h r

end TcpConnection

/-! ## Any run -/

/-- The step is a public function of the closed connection `i`, called by its user, or a functor
that such a call has queued. -/
def OnClosed (call : LoopCall β) (i : ℕ) : Prop :=
  (call.before.conn i).state = .kDisconnected ∧
    match call.input with
    | .request j _ => j = i
    | .runFunctor .. => ∃ life g, called call = some (.connection i life g) ∧ g.isUserCall = true
    | _ => False

/-- Whether a functor leaves its connection alone, if that is closed. -/
def LoopFunctor.SparesClosed (s : EventLoop β) : LoopFunctor β → Prop
  | createConnection .. => True
  | connection i _ g => (s.conn i).state = .kDisconnected → g.isSafe (s.conn i) = true

/-- The step does not start reading on a closed connection, nor stop a closed connection from
reading that was reading when it was closed, nor set an option of its socket. -/
def SparesClosed (call : LoopCall β) : Prop :=
  match call.input with
  | .request i r =>
    (call.before.conn i).state = .kDisconnected → r.isSafe (call.before.conn i) = true
  | .runFunctor .. => ∀ functor ∈ call.before.running.head?, functor.SparesClosed call.before
  | _ => True

instance (s : EventLoop β) : ∀ functor : LoopFunctor β, Decidable (functor.SparesClosed s)
  | .createConnection .. => isTrue trivial
  | .connection _ _ _ => inferInstanceAs (Decidable (_ → _))

instance : DecidablePred (SparesClosed (β := β))
  | ⟨.request _ _, _, _⟩ => inferInstanceAs (Decidable (_ → _))
  | ⟨.runFunctor .., _, _⟩ => inferInstanceAs (Decidable (∀ _ ∈ _, _))
  | ⟨.newConnection .., _, _⟩ | ⟨.handleEvent .., _, _⟩ | ⟨.swapFunctors, _, _⟩ => isTrue trivial

/-- A step of the loop `s` touches nothing through connection `i`: the connection stays closed and
out of the poller, no system call is made, and neither the interest set nor another connection
changes. -/
structure Inert (s : EventLoop β) (o : Outcome Abort (LifeEffect (Effect β)) (EventLoop β) Unit)
    (i : ℕ) : Prop where
  state : (o.state.conn i).state = .kDisconnected
  channel : (o.state.conn i).channel.Out
  calls : ∀ e ∈ o.trace, e.effect.isSystemCall = false
  interest : ∀ set, interestAfter o.trace set = set
  others : ∀ j, j ≠ i → o.state.conn j = s.conn j

/-- The invariant: every closed connection is out of the poller. -/
def AllOut (s : EventLoop β) : Prop := ∀ i, (s.conn i).ClosedOut

section Steps

open EventLoop TcpConnection

variable {s : EventLoop β} {i : ℕ} {x : Conn β Unit}

/-- A call that touches nothing of its own connection touches nothing of the loop. -/
theorem Inert.of_untouched (hs : (s.conn i).state = .kDisconnected)
    (hout : (s.conn i).channel.Out) (hun : (s.conn i).Untouched (x (s.conn i))) :
    Inert s (onConnection i x s) i := by
  obtain ⟨s', hs', hp⟩ := onConnection_spec i x s
  rw [hs']
  have hcalls : ∀ e ∈ (x (s.conn i)).trace.map (LifeEffect.mk i (s.life i)),
      e.effect.isSystemCall = false := by
    intro e he
    obtain ⟨e₀, he₀, rfl⟩ := List.mem_map.1 he
    exact hun.calls e₀ he₀
  have hself : s'.conn i = (x (s.conn i)).state := by
    rw [hp.conn]
    exact Function.update_self _ _ _
  refine ⟨?_, ?_, hcalls, interestAfter_eq hcalls, fun j hj => ?_⟩
  · rw [hself, hun.state]
    exact hs
  · rw [hself, hun.channel]
    exact hout
  · rw [hp.conn]
    exact Function.update_of_ne hj _ _

/-- A call that makes a system call does not. -/
theorem Inert.not_of_touches (htouch : ∃ e ∈ (x (s.conn i)).trace, e.isSystemCall = true) :
    ¬Inert s (onConnection i x s) i := by
  obtain ⟨s', hs', -⟩ := onConnection_spec i x s
  rw [hs']
  intro hinert
  obtain ⟨e, he, hsys⟩ := htouch
  have hquiet : e.isSystemCall = false :=
    hinert.calls (LifeEffect.mk i (s.life i) e) (List.mem_map_of_mem he)
  rw [hquiet] at hsys
  cases hsys

/-- Whether a call touches anything is decided by whether it is safe. -/
theorem inert_iff_safe {safe : Bool} (hs : (s.conn i).state = .kDisconnected)
    (hout : (s.conn i).channel.Out)
    (hun : safe = true → (s.conn i).Untouched (x (s.conn i)))
    (htouch : safe = false → ∃ e ∈ (x (s.conn i)).trace, e.isSystemCall = true) :
    Inert s (onConnection i x s) i ↔ safe = true := by
  cases safe with
  | true => exact iff_of_true (.of_untouched hs hout (hun rfl)) rfl
  | false => exact iff_of_false (Inert.not_of_touches (htouch rfl)) Bool.false_ne_true

theorem AllOut.onConnection (h : AllOut s)
    (hx : (x (s.conn i)).val = .ok () → (x (s.conn i)).state.ClosedOut)
    (hok : (EventLoop.onConnection i x s).val = .ok ()) :
    AllOut (EventLoop.onConnection i x s).state := by
  obtain ⟨s', hs', hp⟩ := onConnection_spec i x s
  rw [hs'] at hok ⊢
  intro j
  rw [hp.conn]
  by_cases hj : j = i
  · subst hj
    simpa using hx hok
  · simpa [Function.update_of_ne hj] using h j

/-- A connection that is being set up is not closed. -/
theorem AllOut.connectEstablished {s₁ : EventLoop β} (h : AllOut s)
    (hconn : ∀ j, j ≠ i → s₁.conn j = s.conn j) (hstate : (s₁.conn i).state = .kConnecting)
    (hok : (EventLoop.onConnection i TcpConnection.connectEstablished s₁).val = .ok ()) :
    AllOut (EventLoop.onConnection i TcpConnection.connectEstablished s₁).state := by
  have hall : AllOut s₁ := by
    intro j
    by_cases hj : j = i
    · subst hj
      intro hs
      rw [hstate] at hs
      cases hs
    · rw [hconn j hj]
      exact h j
  refine hall.onConnection (fun hval => ?_) hok
  have ho := connectEstablished_outcome (s₁.conn i)
  generalize TcpConnection.connectEstablished (s₁.conn i) = o at ho hval ⊢
  cases ho with
  | refused hs => cases hval
  | unset hs hcb => cases hval
  | opened hs hcb => exact fun hclosed => by cases hclosed

variable [Inhabited β]

theorem AllOut.createConnection (h : AllOut s) (sockFd : ℤ)
    (connectCallback messageCallback writeCompleteCallback : Option Callback)
    (hok : (EventLoop.createConnection sockFd connectCallback messageCallback
      writeCompleteCallback s).val = .ok ()) :
    AllOut (EventLoop.createConnection sockFd connectCallback messageCallback
      writeCompleteCallback s).state := by
  rcases hpool : s.connectionsPool.getLast? with _ | _ | i
  · rw [createConnection_new s _ _ _ _ hpool] at hok ⊢
    refine h.connectEstablished (fun j hj => Function.update_of_ne hj _ _) ?_ hok
    simp [EventLoop.extended, newConn, TcpConnection.init]
  · rw [createConnection_null s _ _ _ _ hpool] at hok
    cases hok
  · rw [createConnection_reuse s _ _ _ _ hpool] at hok ⊢
    refine h.connectEstablished (fun j hj => Function.update_of_ne hj _ _) ?_ hok
    simp [EventLoop.reused, connectReset, sendFileReset]

/-- One step keeps closed connections out of the poller, if it spares them. -/
theorem AllOut.step (h : AllOut s) (op : LoopOp β)
    (hspares : SparesClosed (Call.make LoopOp.exec op s)) (hok : (op.exec s).val = .ok ()) :
    AllOut (op.exec s).state := by
  cases op with
  | newConnection sockFd connectCallback messageCallback writeCompleteCallback => exact h
  | handleEvent i callback =>
    exact h.onConnection (closedOut_callback (h i) callback) hok
  | request i r => exact h.onConnection (fun _ => closedOut_request (h i) hspares) hok
  | swapFunctors => exact h
  | runFunctor w f =>
    rw [LoopOp.exec] at hok ⊢
    cases hrunning : s.running with
    | nil =>
      rw [runFunctor_nil w f hrunning]
      exact h
    | cons functor rest =>
      rw [runFunctor_cons w f hrunning] at hok ⊢
      have hrest : AllOut { s with running := rest } := h
      cases functor with
      | createConnection sockFd connectCallback messageCallback writeCompleteCallback =>
        exact hrest.createConnection sockFd _ _ _ hok
      | connection i life g =>
        have hsafe : (s.conn i).state = .kDisconnected → g.isSafe (s.conn i) = true :=
          hspares (.connection i life g) (by
            rw [Call.make_before, hrunning]
            rfl)
        exact hrest.onConnection (closedOut_functor (h i) w f hsafe) hok

/-- **A step on a closed connection touches nothing** exactly when it spares closed
connections. -/
theorem AllOut.inert_iff (h : AllOut s) {op : LoopOp β}
    (hon : OnClosed (Call.make LoopOp.exec op s) i) :
    Inert s (op.exec s) i ↔ SparesClosed (Call.make LoopOp.exec op s) := by
  obtain ⟨hs, hop⟩ := hon
  have hs : (s.conn i).state = .kDisconnected := hs
  have hout := h i hs
  cases op with
  | request j r =>
    obtain rfl : j = i := hop
    have hspares : SparesClosed (Call.make LoopOp.exec (.request j r) s) ↔
        r.isSafe (s.conn j) = true := ⟨fun hspare => hspare hs, fun hsafe _ => hsafe⟩
    rw [hspares]
    exact inert_iff_safe hs hout (request_untouched hs hout) (request_touches hout)
  | runFunctor w f =>
    obtain ⟨life, g, hcalled, huser⟩ := hop
    obtain ⟨rest, hrunning⟩ := List.head?_eq_some_iff.1 (show s.running.head? = _ from hcalled)
    have hspares : SparesClosed (Call.make LoopOp.exec (.runFunctor w f) s) ↔
        g.isSafe (s.conn i) = true := by
      have hhead : SparesClosed (Call.make LoopOp.exec (.runFunctor w f) s) ↔
          ∀ functor ∈ s.running.head?, functor.SparesClosed s := Iff.rfl
      rw [hhead, hrunning]
      constructor
      · intro hspare
        exact hspare _ rfl hs
      · rintro hsafe _ ⟨⟩ -
        exact hsafe
    rw [hspares, LoopOp.exec, runFunctor_cons w f hrunning]
    have hiff : Inert { s with running := rest }
        (callFunctor w f (.connection i life g) { s with running := rest }) i ↔
          g.isSafe (s.conn i) = true :=
      inert_iff_safe hs hout (functor_untouched hs hout w f huser) (functor_touches hout w f)
    rw [← hiff]
    exact ⟨fun h => ⟨h.state, h.channel, h.calls, h.interest, h.others⟩,
      fun h => ⟨h.state, h.channel, h.calls, h.interest, h.others⟩⟩
  | newConnection => cases hop
  | handleEvent => cases hop
  | swapFunctors => cases hop

omit [Inhabited β] in
/-- A step that does not spare closed connections is one on a closed connection. -/
theorem onClosed_of_not_spares {call : LoopCall β} (h : ¬SparesClosed call) :
    ∃ i, OnClosed call i := by
  obtain ⟨op, s, o⟩ := call
  cases op with
  | request i r => exact ⟨i, (Classical.not_imp.1 h).1, rfl⟩
  | runFunctor w f =>
    have hspares : ¬∀ functor ∈ s.running.head?, functor.SparesClosed s := h
    push Not at hspares
    obtain ⟨functor, hmem, hfunctor⟩ := hspares
    cases functor with
    | createConnection => exact absurd trivial hfunctor
    | connection i life g =>
      obtain ⟨hs, hsafe⟩ := Classical.not_imp.1 hfunctor
      have huser : g.isUserCall = true := by
        cases g <;> first | rfl | exact absurd rfl hsafe
      exact ⟨i, hs, life, g, hmem, huser⟩
  | newConnection => exact absurd trivial h
  | handleEvent => exact absurd trivial h
  | swapFunctors => exact absurd trivial h

end Steps

end Cannet.Net
