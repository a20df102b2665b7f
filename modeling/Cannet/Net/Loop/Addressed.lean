import Cannet.Net.Loop.Places

/-!
# The descriptor of a life

A connection moves bytes by `write`, `sendfile` and `readv`, always through the descriptor of its
channel, which is that of the socket it was made or reset for. So all bytes of one life go through
one descriptor (`OneDescriptor`), however often the object is used again.
-/

namespace Cannet.Net

open Foundations TcpConnection

variable {β : Type}

/-- The descriptor that bytes are moved through. -/
def Effect.ioFd : Effect β → List ℤ
  | .write fd _ _ | .sendfile fd .. | .readv fd => [fd]
  | _ => []

/-- The descriptors that bytes are moved through. -/
def ioFds (es : List (Effect β)) : List ℤ := es.flatMap Effect.ioFd

@[simp] theorem ioFds_nil : ioFds ([] : List (Effect β)) = [] := rfl

@[simp] theorem ioFds_cons (e : Effect β) (es : List (Effect β)) :
    ioFds (e :: es) = e.ioFd ++ ioFds es := List.flatMap_cons

@[simp] theorem ioFds_append (es es' : List (Effect β)) :
    ioFds (es ++ es') = ioFds es ++ ioFds es' := List.flatMap_append

/-- All bytes of a life go through one descriptor, that of the socket it was opened for. -/
def OneDescriptor (es : List (Effect β)) : Prop :=
  ∃ fd, .setKeepAlive fd ∈ es ∧ ∀ fd' ∈ ioFds es, fd' = fd

section Quiet

variable (c : TcpConnection β) (ch : Channel)

@[simp] theorem ioFds_closeCalls : ioFds c.closeCalls = [] := by
  unfold closeCalls Channel.removeCalls
  split <;> rfl

@[simp] theorem ioFds_writingOnCalls : ioFds (ch.writingOnCalls : List (Effect β)) = [] := by
  unfold Channel.writingOnCalls
  split <;> rfl

@[simp] theorem ioFds_completion : ioFds c.completion = [] := by
  unfold completion
  split <;> rfl

@[simp] theorem ioFds_sentCalls : ioFds c.sentCalls = [] := by
  unfold sentCalls
  split <;> simp [Effect.ioFd]

theorem ioFds_sent : ioFds (c.channel.writingOffCalls ++ c.sentCalls) = [] := by
  rw [ioFds_append, ioFds_sentCalls]
  rfl

@[simp] theorem ioFds_halfClose : ioFds c.halfClose = [] := by
  unfold halfClose
  split <;> rfl

end Quiet

/-! ## One call -/

/-- The bytes that are moved in `es` go through the descriptor of the channel of `c`. -/
def TcpConnection.MovesOwn (c : TcpConnection β) (es : List (Effect β)) : Prop :=
  ∀ fd ∈ ioFds es, fd = c.channel.fd

namespace TcpConnection.MovesOwn

variable {c : TcpConnection β} {es es' : List (Effect β)}

theorem quiet (h : ioFds es = []) : c.MovesOwn es := by
  intro fd hfd
  rw [h] at hfd
  cases hfd

theorem append (h : c.MovesOwn es) (h' : c.MovesOwn es') : c.MovesOwn (es ++ es') := by
  rw [MovesOwn, ioFds_append, List.forall_mem_append]
  exact ⟨h, h'⟩

theorem handleClose : c.MovesOwn (handleClose c).trace := by
  have ho := handleClose_outcome c
  generalize TcpConnection.handleClose c = o at ho ⊢
  cases ho with
  | refused => exact quiet rfl
  | unset => exact quiet rfl
  | closed => exact quiet (ioFds_closeCalls c)

theorem handleRead [Inhabited β] (hwf : c.inputBuffer.Wf) (r : ReadRet β) :
    c.MovesOwn (handleRead r c).trace := by
  have hreadv : c.MovesOwn [c.readvCall] := by simp [MovesOwn, readvCall, Effect.ioFd]
  have ho := handleRead_outcome hwf r
  generalize TcpConnection.handleRead r c = o at ho ⊢
  cases ho with
  | failed e =>
    have hlooked : c.MovesOwn [.getSocketError c.channel.fd] := quiet rfl
    exact hreadv.append hlooked
  | ended b _ =>
    rw [Outcome.trace_after]
    exact hreadv.append (handleClose (c := { c with inputBuffer := b }))
  | received =>
    have hcalled : c.MovesOwn [.messageCallback] := quiet rfl
    exact hreadv.append hcalled
  | unset => exact hreadv

theorem sendfile (f : SysRet) (file : SendFileUtil) : c.MovesOwn [sendfileCall f file c] := by
  simp [MovesOwn, sendfileCall, Effect.ioFd]

theorem write (data : List β) (w : SysRet) : c.MovesOwn [.write c.channel.fd data w] := by
  simp [MovesOwn, Effect.ioFd]

theorem handleWrite (hwf : c.outputBuffer.Wf) {r : SysRet}
    (hok : (handleWrite r c).val = .ok ()) : c.MovesOwn (handleWrite r c).trace := by
  have ho := handleWrite_returned hwf hok
  generalize TcpConnection.handleWrite r c = o at ho ⊢
  cases ho with
  | idle | nothing => exact quiet rfl
  | failed | short => exact write _ _
  | drained => exact (write _ _).append (quiet (ioFds_sent c))
  | fileFailed | fileShort => exact sendfile _ _
  | fileSent => exact (sendfile _ _).append (quiet (ioFds_sent c))

theorem direct {w : SysRet} {data : List β} {d : Written} (hd : Direct w data c d es) :
    c.MovesOwn es := by
  cases hd with
  | skipped => exact quiet rfl
  | failed e => exact write _ _
  | wrote n =>
    split
    · exact (write _ _).append (quiet (ioFds_completion c))
    · exact write _ _

theorem file {f : SysRet} {file : SendFileUtil}
    {o : Outcome Abort (Effect β) (TcpConnection β) Unit} (ho : FileOutcome f file c o) :
    c.MovesOwn o.trace := by
  cases ho with
  | failed | sent => exact sendfile _ _
  | blocked | short => exact (sendfile _ _).append (quiet (ioFds_writingOnCalls _))
  | released => exact (sendfile _ _).append (quiet rfl)

theorem sendInLoop [Inhabited β] (hwf : c.outputBuffer.Wf) (w f : SysRet) (data : List β) :
    c.MovesOwn (sendInLoop w f data data.length c).trace := by
  have hentry : c.MovesOwn [.sendInLoop data data.length] := quiet rfl
  have ho := sendInLoop_outcome w f data hwf
  generalize TcpConnection.sendInLoop w f data data.length c = o at ho ⊢
  cases ho with
  | disconnected => exact hentry
  | buffered d es hd => exact (hentry.append (direct hd)).append (quiet (ioFds_writingOnCalls _))
  | finished d es hd => exact hentry.append (direct hd)
  | file d es hd _ _ _ o ho =>
    rw [Outcome.trace_after]
    exact (hentry.append (direct hd)).append (file ho)

theorem startReadInLoop : c.MovesOwn (startReadInLoop c).trace := by
  rw [startReadInLoop_apply]
  split <;> exact quiet rfl

theorem stopReadInLoop : c.MovesOwn (stopReadInLoop c).trace := by
  rw [stopReadInLoop_apply]
  split <;> exact quiet rfl

theorem shutdownInLoop : c.MovesOwn (shutdownInLoop c).trace := by
  rw [shutdownInLoop_apply]
  exact quiet (ioFds_halfClose c)

theorem runInLoop {functor : Functor β} {call : Conn β Unit} (onLoop : Bool)
    (hcall : c.MovesOwn (call c).trace) :
    c.MovesOwn (runInLoop onLoop functor call c).trace := by
  rw [TcpConnection.runInLoop, Act.ite_apply]
  split
  · exact hcall
  · exact quiet rfl

theorem shutdown (onLoop : Bool) : c.MovesOwn (shutdown onLoop c).trace := by
  rw [shutdown_apply, shutdownCalls]
  refine quiet ?_
  split
  · split <;> simp [Effect.ioFd]
  · rfl

theorem forceClose : c.MovesOwn (forceClose c).trace := by
  rw [forceClose_apply, forceCloseCalls]
  split <;> exact quiet rfl

variable [Inhabited β]

theorem request (hwf : c.outputBuffer.Wf) (r : Request β) : c.MovesOwn (r.call c).trace := by
  cases r with
  | send onLoop message w f =>
    rw [Request.call, send, Act.get_bind, Act.ite_apply]
    split
    · rw [Act.ite_apply]
      split
      · exact sendInLoop hwf w f message
      · exact quiet rfl
    · exact runInLoop onLoop (sendInLoop hwf w f message)
  | shutdown onLoop => exact shutdown onLoop
  | forceClose => exact forceClose
  | startRead onLoop => exact runInLoop onLoop startReadInLoop
  | stopRead onLoop => exact runInLoop onLoop stopReadInLoop
  | setTcpNoDelay on => exact quiet rfl
  | setSendFile file => exact quiet rfl

theorem callback (hin : c.inputBuffer.Wf) (hout : c.outputBuffer.Wf)
    (callback : ChannelCallback β) (hok : (callback.call c).val = .ok ()) :
    c.MovesOwn (callback.call c).trace := by
  cases callback with
  | closeCallback => exact handleClose
  | errorCallback => exact quiet rfl
  | readCallback r => exact handleRead hin r
  | writeCallback w => exact handleWrite hout hok

theorem functor (hwf : c.outputBuffer.Wf) (w f : SysRet) (g : Functor β) :
    c.MovesOwn (g.call w f c).trace := by
  cases g with
  | writeCompleteCallback =>
    rw [Functor.call, Act.get_bind, Act.ite_apply]
    split <;> exact quiet rfl
  | sendInLoop message =>
    cases message with
    | byValue message => exact sendInLoop hwf w f message
    | byReference => exact quiet rfl
  | shutdownInLoop => exact shutdownInLoop
  | forceCloseInLoop =>
    rw [Functor.call, forceCloseInLoop, Act.get_bind, Act.ite_apply]
    split
    · exact handleClose
    · exact quiet rfl
  | startReadInLoop => exact startReadInLoop
  | stopReadInLoop => exact stopReadInLoop

end TcpConnection.MovesOwn

/-! ## Every life -/

/-- The connection was opened for its socket, and has moved bytes through it only. -/
structure Addressed (es : List (Effect β)) (c : TcpConnection β) : Prop where
  opened : .setKeepAlive c.sockFd ∈ es
  own : ∀ fd ∈ ioFds es, fd = c.sockFd

namespace Addressed

variable {es es' : List (Effect β)} {c c' : TcpConnection β}

theorem oneDescriptor (h : Addressed es c) : OneDescriptor es := ⟨c.sockFd, h.opened, h.own⟩

theorem start {fd : ℤ} (h : c.sockFd = fd) : Addressed [.setKeepAlive fd] c := by
  subst h
  exact ⟨List.mem_singleton_self _, fun _ hfd => (by cases hfd)⟩

theorem append (h : Addressed es c) (hfd : c.channel.fd = c.sockFd) (hmoves : c.MovesOwn es')
    (hsock : c'.sockFd = c.sockFd) : Addressed (es ++ es') c' where
  opened := by
    rw [hsock]
    exact List.mem_append_left _ h.opened
  own := by
    rw [hsock, ioFds_append, List.forall_mem_append]
    exact ⟨h.own, fun fd hmem => (hmoves fd hmem).trans hfd⟩

end Addressed

/-- What holds of a connection between two steps, with what it has moved. -/
def StandingAddressed (es : List (Effect β)) (c : TcpConnection β) : Prop :=
  Standing es c ∧ Addressed es c

/-- A call that keeps the standing, and moves bytes through its own descriptor. -/
theorem StandingAddressed.keepsOk {x : Conn β Unit} (hx : x.KeepsOk Standing)
    (hmoves : ∀ es c, Standing es c → (x c).val = .ok () →
      c.MovesOwn (x c).trace ∧ (x c).state.sockFd = c.sockFd) :
    x.KeepsOk StandingAddressed := by
  rintro es c a ⟨hstanding, haddressed⟩ hok
  obtain ⟨hown, hsock⟩ := hmoves es c hstanding hok
  exact ⟨hx es c a hstanding hok, haddressed.append hstanding.fd hown hsock⟩

theorem addressed_staged [Inhabited β] : StagedInvariant (β := β)
    (fun es c => Installed es c ∧ Addressed es c) StandingAddressed where
  make sockFd connectCallback messageCallback writeCompleteCallback :=
    ⟨standing_staged.make sockFd connectCallback messageCallback writeCompleteCallback, .start rfl⟩
  reset es c sockFd h := ⟨standing_staged.reset es c sockFd h.1, .start rfl⟩
  connectEstablished es c h hok := by
    refine ⟨standing_staged.connectEstablished es c h.1 hok, ?_⟩
    have hfd : c.channel.fd = c.sockFd := by
      rw [h.1.channel]
      rfl
    have ho := connectEstablished_outcome c
    generalize TcpConnection.connectEstablished c = o at ho hok ⊢
    cases ho with
    | refused => cases hok
    | unset => cases hok
    | opened => exact h.2.append hfd (.quiet rfl) rfl
  handleEvent callback :=
    .keepsOk (Standing.handleEvent callback) fun _ _ h hok =>
      ⟨.callback h.input h.output callback hok, (Moves.callback h callback hok).sockFd⟩
  request r :=
    .keepsOk (Standing.request r) fun _ c h _ => ⟨.request h.output r, (Moves.request r c).sockFd⟩
  functor w f g :=
    .keepsOk (Standing.functor w f g) fun _ _ h hok =>
      ⟨.functor h.output w f g, (Moves.functor h w f g hok).sockFd⟩

end Cannet.Net
