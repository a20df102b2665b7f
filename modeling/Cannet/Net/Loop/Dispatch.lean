import Cannet.Net.Loop.Standing

/-!
# The dispatch of an event

`Channel::handleEvent` makes up to four callbacks of a connection, one for each of four tests of
the mask that the poller has delivered. A callback that closes the connection is not meant to be
followed by another that uses its descriptor. That holds unless the mask has `EPOLLHUP` without
`EPOLLIN`: then the first test closes the connection and the third, for which `EPOLLHUP` is enough,
reads from it.
-/

namespace Cannet.Net

open Foundations TcpConnection

variable {β : Type}

/-- The callbacks that `handleEvent` makes for a mask, in order. -/
def dispatch (revents : BitVec 32) (r : ReadRet β) (w : SysRet) : List (ChannelCallback β) :=
  (if revents &&& EPOLLHUP ≠ 0 ∧ revents &&& EPOLLIN = 0 then [.closeCallback] else []) ++
    (if revents &&& EPOLLERR ≠ 0 then [.errorCallback] else []) ++
    (if revents &&& (EPOLLIN ||| EPOLLPRI ||| EPOLLHUP) ≠ 0 then [.readCallback r] else []) ++
    (if revents &&& EPOLLOUT ≠ 0 then [.writeCallback w] else [])

/-- The callback enters `handleClose`. -/
def ChannelCallback.entersClose : ChannelCallback β → Bool
  | .closeCallback | .readCallback (.ok []) => true
  | _ => false

/-- The mask of the channel as the poller delivers it. -/
def TcpConnection.setRevents (revents : BitVec 32) (c : TcpConnection β) : TcpConnection β :=
  { c with channel := c.channel.setRevents revents }

/-- `eventHandling_` of the channel set. -/
def TcpConnection.handling (on : Bool) (c : TcpConnection β) : TcpConnection β :=
  { c with channel := { c.channel with eventHandling := on } }

section Dispatch

variable [Inhabited β] (requests : List (Request β))

/-- A callback, with what `messageCallback_` asks for if it is called. -/
def ChannelCallback.dispatched : ChannelCallback β → Conn β Unit
  | .readCallback (.ok received) => do
    handleRead (.ok received)
    if received ≠ [] then
      requests.forM Request.call
  | callback => callback.call

/-- `Channel::handleEvent` of the channel of a connection. Nothing changes `revents_` meanwhile. -/
def handleEvent (r : ReadRet β) (w : SysRet) : Conn β Unit := do
  Act.modify (handling true)
  let c ← Act.get
  (dispatch c.channel.revents r w).forM (ChannelCallback.dispatched requests)
  Act.modify (handling false)

/-- The states in which a list of callbacks enters `handleClose`. -/
def closeEntries : List (ChannelCallback β) → TcpConnection β → List StateE
  | [], _ => []
  | callback :: rest, c =>
    let o := callback.dispatched requests c
    (if callback.entersClose then [c.state] else []) ++
      if o.returned then closeEntries rest o.state else []

end Dispatch

/-- The effect uses the descriptor, or hands on what was read from it. -/
def Effect.isUse : Effect β → Bool
  | .readv _ | .write .. | .sendfile .. | .getSocketError _ | .messageCallback => true
  | _ => false

/-- No use after a close. -/
def SilentAfterClose (es : List (Effect β)) : Prop :=
  es.Pairwise fun e e' => e.isClose = true → e'.isUse = false

instance : DecidablePred (SilentAfterClose (β := β)) := fun _ =>
  inferInstanceAs (Decidable (List.Pairwise _ _))

/-- The dispatch of an event stops at a close. -/
structure StopsAtClose [Inhabited β] (requests : List (Request β)) (r : ReadRet β) (w : SysRet)
    (c : TcpConnection β) : Prop where
  once : (closeEntries requests (dispatch c.channel.revents r w) (handling true c)).length ≤ 1
  live : ∀ t ∈ closeEntries requests (dispatch c.channel.revents r w) (handling true c),
    t = .kConnected ∨ t = .kDisconnecting
  silent : SilentAfterClose (handleEvent requests r w c).trace

/-! ## What closes nothing -/

/-- Nothing has been closed. -/
def Unclosed (es : List (Effect β)) (_ : TcpConnection β) : Prop := ∀ e ∈ es, e.isClose = false

theorem unclosed_frame : CallFrame (β := β) Unclosed where
  emit e he es _ h := by
    rw [Unclosed, List.forall_mem_append, List.forall_mem_singleton]
    refine ⟨h, ?_⟩
    cases e <;> first | rfl | cases he
  channel _ _ _ := id
  inputBuffer _ _ _ := id
  outputBuffer _ _ _ := id
  sendFile _ _ _ := id
  reading _ _ _ := id

theorem Unclosed.silent {es : List (Effect β)} {c : TcpConnection β} (h : Unclosed es c) :
    SilentAfterClose es := by
  refine List.pairwise_of_forall_mem_list fun e he _ _ hclose => ?_
  rw [h e he] at hclose
  cases hclose

section Quiet

variable [Inhabited β] (requests : List (Request β))

theorem unclosed_request : ∀ r : Request β, r.call.Keeps Unclosed :=
  unclosed_frame.keeps_request
    (fun _ => .bind .get fun _ => .ite (.bind (.modify fun _ _ => id) fun _ =>
      unclosed_frame.keeps_runInLoop _ _ unclosed_frame.output.keeps_shutdownInLoop) (.pure ()))
    (.bind .get fun _ => .ite (.bind (.modify fun _ _ => id) fun _ =>
      .emit (unclosed_frame.emit _ rfl)) (.pure ()))

theorem unclosed_received {received : List β} (h : received ≠ []) :
    (handleRead (.ok received)).Keeps Unclosed := by
  refine .bind .get fun c => .bind (.emit (unclosed_frame.emit _ rfl)) fun _ =>
    .bind (.need _ _) fun b => .bind (.modify fun _ _ => id) fun _ => ?_
  rw [if_neg h]
  exact .ite (.emit (unclosed_frame.emit _ rfl)) (.abort _)

/-- A callback that does not enter `handleClose` closes nothing. -/
theorem unclosed_dispatched {callback : ChannelCallback β} (h : callback.entersClose = false) :
    (callback.dispatched requests).Keeps Unclosed := by
  cases callback with
  | closeCallback => cases h
  | errorCallback => exact unclosed_frame.keeps_handleError
  | writeCallback w => exact unclosed_frame.output.keeps_handleWrite w
  | readCallback r =>
    cases r with
    | err e =>
      exact .bind .get fun _ => .bind (.emit (unclosed_frame.emit _ rfl)) fun _ =>
        unclosed_frame.keeps_handleError
    | ok received =>
      have hne : received ≠ [] := fun hnil => by
        subst hnil
        cases h
      exact .bind (unclosed_received hne) fun _ =>
        .ite (.forM fun r _ => unclosed_request r) (.pure ())

/-- Callbacks that do not enter `handleClose`. -/
theorem closeEntries_quiet {callbacks : List (ChannelCallback β)}
    (h : ∀ callback ∈ callbacks, callback.entersClose = false) (c : TcpConnection β) :
    closeEntries requests callbacks c = [] := by
  induction callbacks generalizing c with
  | nil => rfl
  | cons callback rest ih =>
    rw [closeEntries, h callback (by simp)]
    have hrest := fun c => ih (fun callback' h' => h callback' (by simp [h'])) c
    simp [hrest]

end Quiet

/-! ## What closes -/

namespace TcpConnection

theorem close_mem_closeCalls (c : TcpConnection β) : .close c.channel.fd ∈ c.closeCalls := by
  simp [closeCalls, Channel.removeCalls, Channel.disabled, Channel.updated]

theorem closeCalls_unused (c : TcpConnection β) : ∀ e ∈ c.closeCalls, e.isUse = false := by
  unfold closeCalls Channel.removeCalls
  split <;> simp [Effect.isUse, Channel.updateCall]

end TcpConnection

theorem SilentAfterClose.of_unused {es : List (Effect β)} (h : ∀ e ∈ es, e.isUse = false) :
    SilentAfterClose es :=
  List.pairwise_of_forall_mem_list fun _ _ e' he' _ => h e' he'

theorem SilentAfterClose.cons {e : Effect β} {es : List (Effect β)} (h : SilentAfterClose es)
    (he : e.isClose = false) : SilentAfterClose (e :: es) := by
  refine List.pairwise_cons.2 ⟨fun _ _ hclose => ?_, h⟩
  rw [he] at hclose
  cases hclose

section Closing

variable [Inhabited β] (requests : List (Request β)) (r : ReadRet β) (w : SysRet)
  {c : TcpConnection β}

theorem handleEvent_trace (c : TcpConnection β) :
    (handleEvent requests r w c).trace =
      ((dispatch c.channel.revents r w).forM (ChannelCallback.dispatched requests)
        (handling true c)).trace := by
  rw [handleEvent, Act.modify_bind, Act.get_bind, Act.bind_apply]
  have hrevents : (handling true c).channel.revents = c.channel.revents := rfl
  rw [hrevents]
  rcases (dispatch c.channel.revents r w).forM (ChannelCallback.dispatched requests)
    (handling true c) with ⟨_ | _, s', es⟩
  · rfl
  · exact List.append_nil es

theorem readv_mem_dispatched (c : TcpConnection β) :
    c.readvCall ∈ ((ChannelCallback.readCallback r).dispatched requests c).trace := by
  have hread : c.readvCall ∈ (handleRead r c).trace := by
    rw [handleRead, Act.get_bind, Act.emit_bind]
    exact List.mem_cons_self
  cases r with
  | err e => exact hread
  | ok received => exact (Act.trace_prefix_bind _ _ c).subset hread

/-- A read is made after an error has been looked up, too. -/
theorem readv_mem_forM (errs : Prop) [Decidable errs] (rest : List (ChannelCallback β))
    (c : TcpConnection β) :
    c.readvCall ∈ (((if errs then [ChannelCallback.errorCallback] else []) ++
      ChannelCallback.readCallback r :: rest).forM
        (ChannelCallback.dispatched requests) c).trace := by
  have hread : c.readvCall ∈ ((ChannelCallback.readCallback r :: rest).forM
      (ChannelCallback.dispatched requests) c).trace :=
    (Act.trace_prefix_bind _ _ c).subset (readv_mem_dispatched requests r c)
  split
  · exact List.mem_cons_of_mem _ hread
  · exact hread

/-- Callbacks none of which enters `handleClose`. -/
theorem silent_of_quiet {callbacks : List (ChannelCallback β)}
    (h : ∀ callback ∈ callbacks, callback.entersClose = false) (c : TcpConnection β) :
    SilentAfterClose (callbacks.forM (ChannelCallback.dispatched requests) c).trace := by
  have hkeeps := Act.Keeps.forM fun callback hmem =>
    unclosed_dispatched requests (h callback hmem)
  have hunclosed : Unclosed [] c := fun e he => absurd he List.not_mem_nil
  exact (hkeeps [] c hunclosed).silent

/-- The callbacks from the read that ends the connection. -/
theorem ended_stops (hlive : c.Live) (hcb : c.closeCallback = true) (hwf : c.inputBuffer.Wf)
    (writes : Prop) [Decidable writes] :
    let callbacks : List (ChannelCallback β) :=
      .readCallback (.ok []) :: if writes then [.writeCallback w] else []
    closeEntries requests callbacks c = [c.state] ∧
      SilentAfterClose (callbacks.forM (ChannelCallback.dispatched requests) c).trace := by
  obtain ⟨b, hended⟩ := handleRead_ended hlive hcb hwf
  let c' : TcpConnection β := TcpConnection.closed { c with inputBuffer := b }
  have hread : (ChannelCallback.readCallback (.ok [])).dispatched requests c =
      ⟨.ok (), c', c.readvCall :: c.closeCalls⟩ := by
    rw [ChannelCallback.dispatched, Act.bind_ok hended]
    simp [c']
  have hsilent : SilentAfterClose (c.readvCall :: c.closeCalls) :=
    (SilentAfterClose.of_unused c.closeCalls_unused).cons rfl
  refine ⟨?_, ?_⟩
  · have hrest : ∀ callback ∈ (if writes then [ChannelCallback.writeCallback w] else [] :
        List (ChannelCallback β)), callback.entersClose = false := by
      split <;> simp [ChannelCallback.entersClose]
    rw [closeEntries, closeEntries_quiet requests hrest]
    simp [ChannelCallback.entersClose]
  · rw [Act.forM_cons, Act.bind_ok hread]
    have hrest : ((if writes then [ChannelCallback.writeCallback w] else []).forM
        (ChannelCallback.dispatched requests) c').trace = [] := by
      split
      · -- with all interest off there is nothing to write
        have hidle : (ChannelCallback.writeCallback w).dispatched requests c' = ⟨.ok (), c', []⟩ :=
          handleWrite_notWriting w (isWriting_closed _)
        rw [Act.forM_cons, Act.bind_ok hidle]
        rfl
      · rfl
    rw [Outcome.trace_after, hrest, List.append_nil]
    exact hsilent

/-- What happens in `handleEvent` after the error has been looked up. -/
theorem stops_after_error {callbacks : List (ChannelCallback β)} (errs : Prop)
    [Decidable errs] (h : closeEntries requests callbacks c = [c.state] ∧
      SilentAfterClose (callbacks.forM (ChannelCallback.dispatched requests) c).trace) :
    let all := (if errs then [ChannelCallback.errorCallback] else []) ++ callbacks
    closeEntries requests all c = [c.state] ∧
      SilentAfterClose (all.forM (ChannelCallback.dispatched requests) c).trace := by
  by_cases herrs : errs
  · simp only [if_pos herrs]
    exact ⟨h.1, h.2.cons rfl⟩
  · simp only [if_neg herrs]
    exact h

end Closing

/-! ## The masks that close and read -/

/-- `EPOLLHUP` without `EPOLLIN`. -/
abbrev HangsUpUnread (revents : BitVec 32) : Prop :=
  revents &&& EPOLLHUP ≠ 0 ∧ revents &&& EPOLLIN = 0

section Masks

variable (revents : BitVec 32) (r : ReadRet β) (w : SysRet)

theorem readable_of_hangup (h : revents &&& EPOLLHUP ≠ 0) :
    revents &&& (EPOLLIN ||| EPOLLPRI ||| EPOLLHUP) ≠ 0 := by
  have hbit : (EPOLLIN ||| EPOLLPRI ||| EPOLLHUP) &&& EPOLLHUP = EPOLLHUP := by decide
  intro hzero
  rw [← hbit, ← BitVec.and_assoc, hzero] at h
  simp at h

theorem dispatch_hangup (h : HangsUpUnread revents) :
    dispatch revents r w = .closeCallback ::
      ((if revents &&& EPOLLERR ≠ 0 then [.errorCallback] else []) ++
        .readCallback r :: if revents &&& EPOLLOUT ≠ 0 then [.writeCallback w] else []) := by
  have hread := readable_of_hangup revents h.1
  rw [dispatch, if_pos h, if_pos hread]
  simp

theorem dispatch_readable (h : ¬HangsUpUnread revents)
    (hread : revents &&& (EPOLLIN ||| EPOLLPRI ||| EPOLLHUP) ≠ 0) :
    dispatch revents r w =
      (if revents &&& EPOLLERR ≠ 0 then [.errorCallback] else []) ++
        .readCallback r :: if revents &&& EPOLLOUT ≠ 0 then [.writeCallback w] else [] := by
  rw [dispatch, if_neg h, if_pos hread]
  simp

theorem dispatch_quiet (h : ¬HangsUpUnread revents)
    (hread : revents &&& (EPOLLIN ||| EPOLLPRI ||| EPOLLHUP) = 0 ∨ r ≠ .ok []) :
    ∀ callback ∈ dispatch revents r w, callback.entersClose = false := by
  have hends : revents &&& (EPOLLIN ||| EPOLLPRI ||| EPOLLHUP) ≠ 0 →
      (ChannelCallback.readCallback r).entersClose = false := fun hne => by
    have hr := hread.resolve_left hne
    rcases r with (_ | _) | _
    · exact absurd rfl hr
    · rfl
    · rfl
  rw [dispatch, if_neg h, List.nil_append]
  intro callback hmem
  rcases List.mem_append.1 hmem with hmem | hmem
  · rcases List.mem_append.1 hmem with hmem | hmem
    · rw [List.mem_ite_nil_right] at hmem
      rw [List.mem_singleton.1 hmem.2]
      rfl
    · rw [List.mem_ite_nil_right] at hmem
      rw [List.mem_singleton.1 hmem.2]
      exact hends hmem.1
  · rw [List.mem_ite_nil_right] at hmem
    rw [List.mem_singleton.1 hmem.2]
    rfl

end Masks

/-! ## The dispatch -/

section Stops

variable [Inhabited β] (requests : List (Request β)) (r : ReadRet β) (w : SysRet)
  {c : TcpConnection β}

theorem not_stops_of_hangup (hlive : c.Live) (hcb : c.closeCallback = true)
    (h : HangsUpUnread c.channel.revents) : ¬StopsAtClose requests r w c := by
  intro hstops
  have hsilent := hstops.silent
  have hclose : ChannelCallback.closeCallback.dispatched requests (handling true c) =
      ⟨.ok (), (handling true c).closed, (handling true c).closeCalls⟩ :=
    handleClose_live hlive hcb
  rw [handleEvent_trace, dispatch_hangup _ r w h, Act.forM_cons, Act.bind_ok hclose] at hsilent
  have hread := readv_mem_forM requests r (c.channel.revents &&& EPOLLERR ≠ 0)
    (if c.channel.revents &&& EPOLLOUT ≠ 0 then [.writeCallback w] else []) (handling true c).closed
  have hused := (List.pairwise_append.1 hsilent).2.2 _ (close_mem_closeCalls _) _ hread rfl
  cases hused

/-- **A dispatch that does not read after its close** stops at it. -/
theorem stops_of_not_hangup (hlive : c.Live) (hcb : c.closeCallback = true)
    (hwf : c.inputBuffer.Wf) (h : ¬HangsUpUnread c.channel.revents) :
    StopsAtClose requests r w c := by
  by_cases hends : c.channel.revents &&& (EPOLLIN ||| EPOLLPRI ||| EPOLLHUP) ≠ 0 ∧ r = .ok []
  · obtain ⟨hread, rfl⟩ := hends
    obtain ⟨hentries, hsilent⟩ := stops_after_error requests (c.channel.revents &&& EPOLLERR ≠ 0)
      (ended_stops requests w (c := handling true c) hlive hcb hwf
        (c.channel.revents &&& EPOLLOUT ≠ 0))
    rw [← dispatch_readable _ _ w h hread] at hentries hsilent
    rw [← handleEvent_trace] at hsilent
    refine ⟨?_, ?_, hsilent⟩
    · rw [hentries]
      exact Nat.le_refl 1
    · rw [hentries]
      exact List.forall_mem_singleton.2 hlive
  · have hquiet := dispatch_quiet _ r w h (by
      by_cases hread : c.channel.revents &&& (EPOLLIN ||| EPOLLPRI ||| EPOLLHUP) = 0
      · exact .inl hread
      · exact .inr fun hr => hends ⟨hread, hr⟩)
    have hentries := closeEntries_quiet requests hquiet (handling true c)
    refine ⟨?_, ?_, ?_⟩
    · rw [hentries]
      exact Nat.zero_le 1
    · rw [hentries]
      exact fun t ht => absurd ht List.not_mem_nil
    · rw [handleEvent_trace]
      exact silent_of_quiet requests hquiet _

end Stops

/-- **The dispatch of an event stops at close** exactly when the poller has not delivered
`EPOLLHUP` without `EPOLLIN`: for every live connection after every run of the loop, and whatever
is read, written and asked for by `messageCallback_`. -/
theorem dispatch_stops_at_close_iff [Inhabited β] {calls : List (LoopCall β)} {s : EventLoop β}
    (h : Run LoopOp.exec Scheduled EventLoop.start calls s) {i : ℕ} (hi : i < s.made)
    (hlive : (s.conn i).Live) (revents : BitVec 32) (requests : List (Request β)) (r : ReadRet β)
    (w : SysRet) :
    StopsAtClose requests r w ((s.conn i).setRevents revents) ↔
      ¬(revents &&& EPOLLHUP ≠ 0 ∧ revents &&& EPOLLIN = 0) := by
  have hstanding := standing_of_run h hi
  constructor
  · intro hstops hhangup
    exact not_stops_of_hangup requests r w (c := (s.conn i).setRevents revents) hlive
      hstanding.closeCallback hhangup hstops
  · exact stops_of_not_hangup requests r w (c := (s.conn i).setRevents revents) hlive
      hstanding.closeCallback hstanding.input

/-- A connection reads the end of its input while it has output to write. -/
theorem dispatch_stops_at_close_iff_at_end :
    ∃ calls s, Run (LoopOp.exec (β := ℕ)) Scheduled EventLoop.start calls s ∧
      (StopsAtClose [] (.ok []) (.ok 1) ((s.conn 0).setRevents 0x1d) ↔
        ¬((0x1d : BitVec 32) &&& EPOLLHUP ≠ 0 ∧ (0x1d : BitVec 32) &&& EPOLLIN = 0)) ∧
      (handleEvent [] (.ok []) (.ok 1) ((s.conn 0).setRevents 0x1d)).trace =
        [.getSocketError 5, .readv 5, .epollCtl .del 5 0, .recycle 5, .close 5] := by
  have hrun : Run (LoopOp.exec (β := ℕ)) Scheduled EventLoop.start _ _ :=
    run_replay [.newConnection 5 (some 0) (some 1) none, .swapFunctors,
      .runFunctor (.ok 0) (.ok 0), .request 0 (.send true [1, 2, 3] (.ok 2) (.ok 0))]
      (by decide +kernel)
  exact ⟨_, _, hrun,
    dispatch_stops_at_close_iff hrun (by decide +kernel) (by decide +kernel) 0x1d [] (.ok [])
      (.ok 1), by decide +kernel⟩

/-- A paused connection with output to write is hung up on: it is closed, then its descriptor is
asked for its error and read from. -/
theorem read_after_hangup :
    ¬∀ (calls : List (LoopCall ℕ)) (s : EventLoop ℕ),
      Run LoopOp.exec Scheduled EventLoop.start calls s → ∀ i < s.made, (s.conn i).Live →
        ∀ (revents : BitVec 32) (requests : List (Request ℕ)) (r : ReadRet ℕ) (w : SysRet),
          StopsAtClose requests r w ((s.conn i).setRevents revents) := by
  intro h
  have hrun : Run (LoopOp.exec (β := ℕ)) Scheduled EventLoop.start _ _ :=
    run_replay [.newConnection 5 (some 0) (some 1) none, .swapFunctors,
      .runFunctor (.ok 0) (.ok 0), .request 0 (.send true [1, 2, 3] (.ok 2) (.ok 0)),
      .request 0 (.stopRead true)] (by decide +kernel)
  have hstops := h _ _ hrun 0 (by decide +kernel) (by decide +kernel) 0x1c [] (.err (.other 9))
    (.ok 0)
  have hsilent := hstops.silent
  revert hsilent
  decide +kernel

end Cannet.Net
