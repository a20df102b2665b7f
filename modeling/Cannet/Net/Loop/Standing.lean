import Cannet.Net.Connection.Interest
import Cannet.Net.Loop.Ownership

/-!
# The standing of a connection between two steps of its loop

What holds of every connection of a loop whenever none of its functions is running (`Standing`):
its buffers are in order, its channel has its descriptor and is not being handled; and while it is
live, the channel is tuned to what the connection needs, and without a file attached it waits to
write exactly while bytes are buffered (`standing_of_run`).
-/

namespace Cannet.Net

open Foundations EventLoop TcpConnection

variable {β : Type}

/-- What holds of a connection between two steps, after the effects of its life so far. -/
structure Standing (es : List (Effect β)) (c : TcpConnection β) : Prop where
  settled : c.state ≠ .kConnecting
  output : c.outputBuffer.Wf
  input : c.inputBuffer.Wf
  fd : c.channel.fd = c.sockFd
  idle : c.channel.eventHandling = false
  closeCallback : c.closeCallback = true
  tuned : c.Live → Tuned (ctls es) c.reading c.channel
  pending : c.Live → c.sendFile = none →
    (c.channel.isWriting = true ↔ c.outputBuffer.readable ≠ [])

/-- What holds of a connection that has been made or reset. -/
structure Installed (es : List (Effect β)) (c : TcpConnection β) : Prop where
  state : c.state = .kConnecting
  output : c.outputBuffer.Wf
  input : c.inputBuffer.Wf
  channel : c.channel = .init c.sockFd
  closeCallback : c.closeCallback = true
  reading : c.reading = true
  empty : c.outputBuffer.readable = []
  calls : ctls es = []

/-! ## What does not reach the descriptor -/

section Quiet

variable (c : TcpConnection β)

@[simp] theorem ctls_completion : ctls c.completion = [] := by
  unfold completion
  split <;> rfl

@[simp] theorem ctls_sentCalls : ctls c.sentCalls = [] := by
  unfold sentCalls
  split <;> simp [Effect.ctl]

@[simp] theorem ctls_halfClose : ctls c.halfClose = [] := by
  unfold halfClose
  split <;> rfl

@[simp] theorem ctls_shutdownCalls (onLoop : Bool) : ctls (c.shutdownCalls onLoop) = [] := by
  unfold shutdownCalls
  split
  · split
    · exact ctls_halfClose c
    · rfl
  · rfl

@[simp] theorem ctls_forceCloseCalls : ctls c.forceCloseCalls = [] := by
  unfold forceCloseCalls
  split <;> rfl

theorem TcpConnection.Direct.ctls_eq {w : SysRet} {data : List β} {c : TcpConnection β}
    {d : Written} {es : List (Effect β)} (hd : Direct w data c d es) : ctls es = [] := by
  cases hd with
  | skipped _ => rfl
  | wrote n _ _ _ => split <;> simp [Effect.ctl]
  | failed e _ _ _ => rfl

end Quiet

@[simp] theorem Channel.fd_writingOn (ch : Channel) : ch.writingOn.fd = ch.fd := by
  unfold writingOn
  split <;> rfl

@[simp] theorem Channel.eventHandling_writingOn (ch : Channel) :
    ch.writingOn.eventHandling = ch.eventHandling := by
  unfold writingOn
  split <;> rfl

/-! ## Changes that keep the standing -/

namespace Standing

variable {es es' : List (Effect β)} {c : TcpConnection β}

/-- What is done without a call on the descriptor. -/
theorem quiet (h : Standing es c) (hes : ctls es' = []) : Standing (es ++ es') c where
  settled := h.settled
  output := h.output
  input := h.input
  fd := h.fd
  idle := h.idle
  closeCallback := h.closeCallback
  tuned hlive := by
    rw [ctls_append, hes, List.append_nil]
    exact h.tuned hlive
  pending := h.pending

/-- A change of what a connection sends and reads. -/
theorem change (h : Standing es c) {ch : Channel} {b : Buffer β} {file : Option SendFileUtil}
    {reading : Bool} (hb : b.Wf) (hfd : ch.fd = c.channel.fd)
    (hidle : ch.eventHandling = c.channel.eventHandling)
    (htuned : c.Live → Tuned (ctls es ++ ctls es') reading ch)
    (hpending : c.Live → file = none → (ch.isWriting = true ↔ b.readable ≠ [])) :
    Standing (es ++ es')
      { c with channel := ch, outputBuffer := b, sendFile := file, reading := reading } where
  settled := h.settled
  output := hb
  input := h.input
  fd := hfd.trans h.fd
  idle := hidle.trans h.idle
  closeCallback := h.closeCallback
  tuned hlive := by
    rw [ctls_append]
    exact htuned hlive
  pending := hpending

theorem inputBuffer (h : Standing es c) {b : Buffer β} (hb : b.Wf) :
    Standing es { c with inputBuffer := b } :=
  ⟨h.settled, h.output, hb, h.fd, h.idle, h.closeCallback, h.tuned, h.pending⟩

theorem attach (h : Standing es c) (file : SendFileUtil) :
    Standing es { c with sendFile := some file } :=
  ⟨h.settled, h.output, h.input, h.fd, h.idle, h.closeCallback, h.tuned,
    fun _ hnone => (by cases hnone)⟩

/-- A live connection goes on to close its sending side. -/
theorem disconnecting (h : Standing es c) (hlive : c.Live) :
    Standing es { c with state := .kDisconnecting } :=
  ⟨fun hs => (by cases hs), h.output, h.input, h.fd, h.idle, h.closeCallback,
    fun _ => h.tuned hlive, fun _ => h.pending hlive⟩

/-- **Closing** leaves nothing to be said of the channel. -/
theorem closed (h : Standing es c) : Standing es' c.closed := by
  have hdead : ¬c.closed.Live := by simp [Live, TcpConnection.closed]
  exact ⟨fun hs => (by cases hs), h.output, h.input, h.fd, h.idle, h.closeCallback,
    fun hlive => absurd hlive hdead, fun hlive => absurd hlive hdead⟩

/-! ## The calls -/

theorem handleClose : (handleClose (β := β)).KeepsOk Standing := by
  intro es c _ h hok
  have ho := handleClose_outcome c
  generalize TcpConnection.handleClose c = o at ho hok ⊢
  cases ho with
  | refused => cases hok
  | unset => cases hok
  | closed => exact h.closed

theorem handleError : (handleError (β := β)).KeepsOk Standing :=
  fun _ _ _ h _ => h.quiet rfl

theorem handleRead [Inhabited β] (r : ReadRet β) : (handleRead r).KeepsOk Standing := by
  intro es c _ h hok
  have ho := handleRead_outcome h.input r
  generalize TcpConnection.handleRead r c = o at ho hok ⊢
  cases ho with
  | failed e => exact h.quiet rfl
  | ended b hb =>
    rw [Outcome.trace_after, Outcome.state_after, ← List.append_assoc]
    exact Standing.handleClose _ _ _ ((h.inputBuffer hb).quiet rfl) hok
  | received data _ _ b hb => exact (h.inputBuffer hb).quiet rfl
  | unset => cases hok

/-- The file branch of `sendInLoop`. -/
theorem file (h : Standing es c) {f : SysRet} {file : SendFileUtil} (hfile : c.sendFile = some file)
    {o : Outcome Abort (Effect β) (TcpConnection β) Unit} (ho : FileOutcome f file c o)
    (hok : o.val = .ok ()) : Standing (es ++ o.trace) o.state := by
  cases ho with
  | failed e => exact h.quiet rfl
  | blocked e _ _ hlen =>
    refine h.change h.output (Channel.fd_writingOn _) (Channel.eventHandling_writingOn _)
      (fun hlive => (h.tuned hlive).writingOn) fun _ hnone => ?_
    simp [hfile] at hnone
  | short n _ hn =>
    refine h.change h.output (Channel.fd_writingOn _) (Channel.eventHandling_writingOn _)
      (fun hlive => (h.tuned hlive).writingOn) fun _ hnone => ?_
    cases hnone
  | sent n _ _ _ => exact (h.attach _).quiet rfl
  | released => cases hok

theorem sendInLoop [Inhabited β] (w f : SysRet) (data : List β) :
    (sendInLoop w f data data.length).KeepsOk Standing := by
  intro es c _ h hok
  have ho := sendInLoop_outcome w f data h.output
  generalize TcpConnection.sendInLoop w f data data.length c = o at ho hok ⊢
  cases ho with
  | disconnected => exact h.quiet rfl
  | buffered d es' hd _ hrest b hb hread =>
    refine h.change hb (Channel.fd_writingOn _) (Channel.eventHandling_writingOn _)
      (fun hlive => ?_) fun _ _ => ?_
    · rw [ctls_append, ctls_cons, hd.ctls_eq]
      exact (h.tuned hlive).writingOn
    · have hne : b.readable ≠ [] := by
        rw [hread]
        simp only [ne_eq, List.append_eq_nil_iff, List.drop_eq_nil_iff, not_and]
        omega
      exact iff_of_true (Channel.isWriting_writingOn _) hne
  | finished d es' hd => exact h.quiet (by rw [ctls_cons, hd.ctls_eq]; rfl)
  | file d es' hd _ file hfile o ho =>
    rw [Outcome.trace_after, Outcome.state_after, ← List.append_assoc]
    refine (h.quiet ?_).file hfile ho hok
    rw [ctls_cons, hd.ctls_eq]
    rfl

theorem handleWrite (r : SysRet) : (handleWrite (β := β) r).KeepsOk Standing := by
  intro es c _ h hok
  have ho := handleWrite_returned h.output hok
  generalize TcpConnection.handleWrite r c = o at ho hok ⊢
  cases ho with
  | idle _ | nothing => exact h.quiet rfl
  | failed | fileFailed => exact h.quiet rfl
  | short hon n _ _ hn b hb hread =>
    refine h.change hb rfl rfl (fun hlive => ?_) fun _ _ => iff_of_true hon ?_
    · simpa [Effect.ctl] using h.tuned hlive
    · rw [hread]
      simp only [ne_eq, List.drop_eq_nil_iff]
      omega
  | drained hon _ _ b hb hread =>
    refine h.change hb rfl rfl (fun hlive => ?_) fun _ _ => ?_
    · simpa [Effect.ctl] using (h.tuned hlive).writingOff hon
    · simp [hread]
  | fileShort hon _ file _ n _ _ hn =>
    exact (h.attach _).quiet rfl
  | fileSent hon hempty file _ n _ _ _ =>
    refine h.change h.output rfl rfl (fun hlive => ?_) fun _ _ => ?_
    · simpa [Effect.ctl, sendfileCall] using (h.tuned hlive).writingOff hon
    · simp [hempty]

theorem startReadInLoop : (startReadInLoop (β := β)).KeepsOk Standing := by
  intro es c _ h _
  rw [startReadInLoop_apply]
  split
  · refine h.change h.output rfl rfl (fun hlive => (h.tuned hlive).readingOn)
      fun hlive hnone => ?_
    rw [← h.pending hlive hnone, Channel.isWriting_readingOn]
  · exact h.quiet rfl

theorem stopReadInLoop : (stopReadInLoop (β := β)).KeepsOk Standing := by
  intro es c _ h _
  rw [stopReadInLoop_apply]
  split
  · rename_i hreads
    refine h.change h.output rfl rfl (fun hlive => ?_) fun hlive hnone => ?_
    · have htuned := h.tuned hlive
      have hreading : c.reading = true := hreads.elim id fun hr => htuned.isReading_eq.symm.trans hr
      rw [hreading] at htuned
      exact htuned.readingOff
    · rw [← h.pending hlive hnone, Channel.isWriting_readingOff]
  · exact h.quiet rfl

theorem shutdownInLoop : (shutdownInLoop (β := β)).KeepsOk Standing := by
  intro es c _ h _
  rw [shutdownInLoop_apply]
  exact h.quiet (ctls_halfClose c)

theorem runInLoop (onLoop : Bool) (functor : Functor β) {call : Conn β Unit}
    (hcall : call.KeepsOk Standing) : (runInLoop onLoop functor call).KeepsOk Standing := by
  cases onLoop with
  | true => exact hcall
  | false => exact fun _ _ _ h _ => h.quiet rfl

theorem send [Inhabited β] (onLoop : Bool) (w f : SysRet) (message : List β) :
    (send onLoop w f message).KeepsOk Standing := by
  intro es c a h hok
  rw [TcpConnection.send, Act.get_bind, Act.ite_apply] at hok ⊢
  split
  · rename_i hs
    rw [if_pos hs, Act.ite_apply] at hok
    rw [Act.ite_apply]
    split
    · rename_i hon
      rw [if_pos hon] at hok
      exact Standing.sendInLoop w f message es c a h hok
    · exact h.quiet rfl
  · rename_i hs
    rw [if_neg hs] at hok
    exact Standing.runInLoop onLoop _ (Standing.sendInLoop w f message) es c a h hok

theorem shutdown (onLoop : Bool) : (shutdown (β := β) onLoop).KeepsOk Standing := by
  intro es c _ h _
  rw [shutdown_apply]
  have hquiet : Standing (es ++ c.shutdownCalls onLoop) c :=
    h.quiet (ctls_shutdownCalls c onLoop)
  rw [shuttingDown]
  split
  · rename_i hs
    exact hquiet.disconnecting (.inl hs)
  · exact hquiet

theorem forceClose : (forceClose (β := β)).KeepsOk Standing := by
  intro es c _ h _
  rw [forceClose_apply]
  have hquiet : Standing (es ++ c.forceCloseCalls) c := h.quiet (ctls_forceCloseCalls c)
  rw [forceClosing]
  split
  · rename_i hlive
    exact hquiet.disconnecting hlive
  · exact hquiet

theorem forceCloseInLoop : (forceCloseInLoop (β := β)).KeepsOk Standing := by
  intro es c a h hok
  rw [TcpConnection.forceCloseInLoop, Act.get_bind, Act.ite_apply] at hok ⊢
  split
  · rename_i hlive
    rw [if_pos hlive] at hok
    exact Standing.handleClose es c a h hok
  · exact h.quiet rfl

end Standing

/-! ## The stages of a life -/

section Stages

variable [Inhabited β]

theorem Standing.request : ∀ r : Request β, r.call.KeepsOk Standing
  | .send onLoop message w f => Standing.send onLoop w f message
  | .shutdown onLoop => Standing.shutdown onLoop
  | .forceClose => Standing.forceClose
  | .startRead onLoop => Standing.runInLoop onLoop _ Standing.startReadInLoop
  | .stopRead onLoop => Standing.runInLoop onLoop _ Standing.stopReadInLoop
  | .setTcpNoDelay _ => fun _ _ _ h _ => h.quiet rfl
  | .setSendFile file => fun _ _ _ h _ => (h.attach file).quiet rfl

theorem Standing.functor (w f : SysRet) : ∀ g : Functor β, (g.call w f).KeepsOk Standing
  | .writeCompleteCallback => by
    intro es c _ h hok
    rw [Functor.call, Act.get_bind, Act.ite_apply] at hok ⊢
    split
    · exact h.quiet rfl
    · exact h.quiet rfl
  | .sendInLoop (.byValue message) => Standing.sendInLoop w f message
  | .sendInLoop .byReference => fun _ _ _ _ hok => by cases hok
  | .shutdownInLoop => Standing.shutdownInLoop
  | .forceCloseInLoop => Standing.forceCloseInLoop
  | .startReadInLoop => Standing.startReadInLoop
  | .stopReadInLoop => Standing.stopReadInLoop

theorem Standing.handleEvent : ∀ callback : ChannelCallback β, callback.call.KeepsOk Standing
  | .closeCallback => Standing.handleClose
  | .errorCallback => Standing.handleError
  | .readCallback r => Standing.handleRead r
  | .writeCallback r => Standing.handleWrite r

omit [Inhabited β] in
/-- **Establishing** a connection registers its channel for the first time. -/
theorem Installed.connectEstablished {es : List (Effect β)} {c : TcpConnection β}
    (h : Installed es c) (hok : (connectEstablished c).val = .ok ()) :
    Standing (es ++ (connectEstablished c).trace) (connectEstablished c).state := by
  have ho := connectEstablished_outcome c
  generalize TcpConnection.connectEstablished c = o at ho hok ⊢
  cases ho with
  | refused => cases hok
  | unset => cases hok
  | opened _ _ =>
    have hfirst := Tuned.first (β := β) c.sockFd
    have hchannel : c.established.channel = (Channel.init c.sockFd).readingOn := by
      rw [established, h.channel]
      rfl
    have hcalls : ctls (es ++ [c.readCall, .connectionCallback true]) =
        ctls ((Channel.init c.sockFd).readingOnCalls : List (Effect β)) := by
      rw [ctls_append, h.calls, readCall, h.channel]
      rfl
    refine ⟨fun hs => (by cases hs), h.output, h.input, ?_, ?_, h.closeCallback, fun _ => ?_,
      fun _ _ => ?_⟩
    · rw [hchannel]
      rfl
    · rw [hchannel]
      rfl
    · rw [hchannel]
      have htuned : Tuned (ctls (es ++ [c.readCall, .connectionCallback true])) c.reading
          (Channel.init c.sockFd).readingOn := by
        rw [hcalls, h.reading]
        exact hfirst
      exact htuned
    · have hempty : c.established.outputBuffer.readable = [] := h.empty
      rw [hchannel, hempty]
      simp

theorem standing_staged : StagedInvariant (β := β) Installed Standing where
  make _ _ _ _ :=
    ⟨rfl, Buffer.init_wf _, Buffer.init_wf _, rfl, rfl, rfl, Buffer.readable_init _, rfl⟩
  reset _ _ _ h :=
    ⟨rfl, h.output.retrieveAll, h.input.retrieveAll, rfl, h.closeCallback, rfl,
      Buffer.readable_retrieveAll _, rfl⟩
  connectEstablished _ _ h hok := h.connectEstablished hok
  handleEvent := Standing.handleEvent
  request := Standing.request
  functor := Standing.functor

/-- **Every connection has its standing**, after every run of the loop. -/
theorem standing_of_run {calls : List (LoopCall β)} {s : EventLoop β}
    (h : Run LoopOp.exec Scheduled EventLoop.start calls s) {i : ℕ} (hi : i < s.made) :
    Standing (lifeTrace (traceOf calls) i (s.life i)) (s.conn i) :=
  (stagedInvariant_of_run standing_staged h).lives.current i hi

/-! ## The interests of a live connection -/

/-- What the kernel keeps of the descriptor of a connection, after the effects of its life. -/
def kernelEntry (es : List (Effect β)) : Descriptor (BitVec 32) :=
  Descriptor.fresh.run ((ctls es).map Prod.snd)

/-- The interests of a connection without a file attached are what it needs, and the kernel knows
them, after the effects of its life so far. -/
structure InterestExact (es : List (Effect β)) (c : TcpConnection β) : Prop where
  reads : c.channel.events &&& kReadEventLT = if c.reading then kReadEventLT else kNoneEvent
  writes : c.channel.events &&& kWriteEvent ≠ 0 ↔ c.outputBuffer.readable ≠ []
  mask : (kernelEntry es).mask =
    if c.channel.events = kNoneEvent then none else some c.channel.events
  status : c.channel.status = .kAdded ↔ (kernelEntry es).mask.isSome = true
  own : ∀ call ∈ ctls es, call.1 = c.channel.fd
  legal : Descriptor.fresh.Accepted ((ctls es).map Prod.snd)

omit [Inhabited β] in
theorem Standing.interestExact {es : List (Effect β)} {c : TcpConnection β} (h : Standing es c)
    (hlive : c.Live) (hfile : c.sendFile = none) : InterestExact es c := by
  have htuned := h.tuned hlive
  have hpending := h.pending hlive hfile
  refine ⟨?_, ?_, ?_, ?_, htuned.own, htuned.accepted⟩
  · rw [htuned.events, interests_and_read]
  · rw [← hpending, Channel.isWriting, decide_eq_true_iff]
  · rw [kernelEntry, htuned.registered.mask, Channel.interest, Channel.isNoneEvent]
    simp only [decide_eq_true_eq]
  · exact htuned.registered.isSome_iff.symm

/-- **The interest mask of a live connection** is exactly what it needs, and every `epoll_ctl` made
for it was legal, after every run of the loop. -/
theorem live_interest_exact {calls : List (LoopCall β)} {s : EventLoop β}
    (h : Run LoopOp.exec Scheduled EventLoop.start calls s) {i : ℕ} (hi : i < s.made)
    (hlive : (s.conn i).Live) (hfile : (s.conn i).sendFile = none) :
    InterestExact (lifeTrace (traceOf calls) i (s.life i)) (s.conn i) :=
  (standing_of_run h hi).interestExact hlive hfile

end Stages

/-- A connection is paused, takes the mask to empty by writing out its output, and has more to
write. -/
theorem live_interest_exact_paused :
    ∃ calls s, Run (LoopOp.exec (β := ℕ)) Scheduled EventLoop.start calls s ∧
      InterestExact (lifeTrace (traceOf calls) 0 (s.life 0)) (s.conn 0) ∧
      ctls (lifeTrace (traceOf calls) 0 (s.life 0)) =
        [(5, .add 3), (5, .mod 7), (5, .mod 4), (5, .del), (5, .add 4)] := by
  have hrun : Run (LoopOp.exec (β := ℕ)) Scheduled EventLoop.start _ _ :=
    run_replay [.newConnection 5 (some 0) (some 1) none, .swapFunctors,
      .runFunctor (.ok 0) (.ok 0), .request 0 (.send true [1, 2, 3] (.ok 2) (.ok 0)),
      .request 0 (.stopRead true), .handleEvent 0 (.writeCallback (.ok 1)),
      .request 0 (.send true [4, 5] (.err .EWOULDBLOCK) (.ok 0))] (by decide +kernel)
  exact ⟨_, _, hrun, live_interest_exact hrun (by decide +kernel) (by decide +kernel)
    (by decide +kernel), by decide +kernel⟩

end Cannet.Net
