import Cannet.Net.Connection.Calls

/-!
# Opening and closing a connection

`connectEstablished` turns the reads on and notifies the user. `handleClose` takes the channel out
of the poller, then `closeCallback_` leads to `connectDestroyed`, which removes the channel: the
object goes to the pool and its descriptor is closed. The connection is already `kDisconnected`
when `connectDestroyed` looks at it.
-/

namespace Cannet.Net

open Foundations

variable {β : Type}

namespace Channel

/-- The channel with all interest off. -/
def disabled (ch : Channel) : Channel := updated { ch with events := kNoneEvent }

/-- The channel after `remove`. -/
def removed (ch : Channel) : Channel := { ch with addedToLoop := false, status := .kNew }

/-- What `removeChannel` does. -/
def removeCalls (ch : Channel) : List (Effect β) :=
  .recycle ch.fd :: .close ch.fd ::
    if ch.status = .kAdded then [.epollCtl .del ch.fd ch.events] else []

theorem remove_apply {ch : Channel} (h : ch.isNoneEvent = true) :
    (remove : Act Abort (Effect β) Channel Unit) ch = ⟨.ok (), ch.removed, ch.removeCalls⟩ := by
  rw [remove, Act.get_bind, Act.check_pos _ h, Act.pure_bind, Act.modify_bind, removeChannel,
    Act.get_bind, Act.emit_bind, Act.emit_bind, removeCalls]
  by_cases hs : ch.status = .kAdded
  · simp only [hs, if_true]
    rfl
  · simp only [hs, if_false]
    rfl

theorem isNoneEvent_disabled (ch : Channel) : ch.disabled.isNoneEvent = true := rfl

end Channel

namespace TcpConnection

/-- A connection that is established. -/
def established (c : TcpConnection β) : TcpConnection β :=
  { c with
    state := .kConnected
    channel := Channel.updated { c.channel with events := c.channel.events ||| kReadEventLT } }

/-- The `epoll_ctl` of `connectEstablished`. -/
def readCall (c : TcpConnection β) : Effect β :=
  Channel.updateCall { c.channel with events := c.channel.events ||| kReadEventLT }

/-- `connectEstablished`. -/
inductive OpenOutcome (c : TcpConnection β) :
    Outcome Abort (Effect β) (TcpConnection β) Unit → Prop
  | refused (h : c.state ≠ .kConnecting) : OpenOutcome c ⟨.error .assertion, c, []⟩
  | unset (h : c.state = .kConnecting) (hcb : c.connectionCallback.isSome = false) :
      OpenOutcome c ⟨.error .badFunctionCall, c.established, [c.readCall]⟩
  | opened (h : c.state = .kConnecting) (hcb : c.connectionCallback.isSome = true) :
      OpenOutcome c ⟨.ok (), c.established, [c.readCall, .connectionCallback true]⟩

/-- **Every outcome of `connectEstablished`.** -/
theorem connectEstablished_outcome (c : TcpConnection β) :
    OpenOutcome c (connectEstablished c) := by
  rw [connectEstablished, Act.get_bind]
  by_cases h : c.state = .kConnecting
  · have hread : onChannel (Channel.enableEvents kReadEventLT) { c with state := .kConnected } =
        ⟨.ok (), c.established, [c.readCall]⟩ :=
      onChannel_apply (by rw [Channel.enableEvents_apply, Channel.update_apply]; rfl)
    rw [Act.check_pos _ h, Act.pure_bind, setState, Act.modify_bind, Act.bind_ok hread,
      callConnectionCallback, Act.get_bind, Act.ite_apply]
    by_cases hcb : c.established.connectionCallback.isSome = true
    · rw [if_pos hcb]
      exact .opened h hcb
    · rw [if_neg hcb]
      exact .unset h (Bool.eq_false_iff.2 hcb)
  · rw [Act.check_neg _ h]
    exact .refused h

/-- A connection that is closed. -/
def closed (c : TcpConnection β) : TcpConnection β :=
  { c with state := .kDisconnected, channel := c.channel.disabled.removed }

/-- What closing it does. -/
def closeCalls (c : TcpConnection β) : List (Effect β) :=
  Channel.updateCall { c.channel with events := kNoneEvent } :: c.channel.disabled.removeCalls

/-- `connectDestroyed` gives no notice unless the connection is still `kConnected`. -/
theorem connectDestroyed_apply {c : TcpConnection β} (hs : c.state ≠ .kConnected)
    (h : c.channel.isNoneEvent = true) :
    connectDestroyed c =
      ⟨.ok (), { c with channel := c.channel.removed }, c.channel.removeCalls⟩ := by
  rw [connectDestroyed, Act.get_bind]
  simp only [hs, if_false]
  exact onChannel_apply (Channel.remove_apply h)

/-- `handleClose`. -/
inductive CloseOutcome (c : TcpConnection β) :
    Outcome Abort (Effect β) (TcpConnection β) Unit → Prop
  | refused (h : ¬(c.state = .kConnected ∨ c.state = .kDisconnecting)) :
      CloseOutcome c ⟨.error .assertion, c, []⟩
  | unset (h : c.state = .kConnected ∨ c.state = .kDisconnecting) (hcb : c.closeCallback = false) :
      CloseOutcome c ⟨.error .badFunctionCall,
        { c with state := .kDisconnected, channel := c.channel.disabled },
        [Channel.updateCall { c.channel with events := kNoneEvent }]⟩
  | closed (h : c.state = .kConnected ∨ c.state = .kDisconnecting) (hcb : c.closeCallback = true) :
      CloseOutcome c ⟨.ok (), c.closed, c.closeCalls⟩

/-- **Every outcome of `handleClose`.** -/
theorem handleClose_outcome (c : TcpConnection β) : CloseOutcome c (handleClose c) := by
  rw [handleClose, Act.get_bind]
  by_cases h : c.state = .kConnected ∨ c.state = .kDisconnecting
  · let c₁ : TcpConnection β :=
      { c with state := .kDisconnected, channel := c.channel.disabled }
    have hoff : onChannel Channel.disableAll { c with state := .kDisconnected } =
        ⟨.ok (), c₁, [Channel.updateCall { c.channel with events := kNoneEvent }]⟩ :=
      onChannel_apply (by rw [Channel.disableAll_apply, Channel.update_apply]; rfl)
    rw [Act.check_pos _ h, Act.pure_bind, setState, Act.modify_bind, Act.bind_ok hoff]
    cases hcb : c.closeCallback with
    | false => exact .unset h hcb
    | true =>
      simp only [if_true]
      rw [connectDestroyed_apply (c := c₁) (by simp [c₁]) c.channel.isNoneEvent_disabled]
      exact .closed h hcb
  · rw [Act.check_neg _ h]
    exact .refused h

theorem handleClose_live {c : TcpConnection β}
    (hlive : c.state = .kConnected ∨ c.state = .kDisconnecting) (hcb : c.closeCallback = true) :
    handleClose c = ⟨.ok (), c.closed, c.closeCalls⟩ := by
  have ho := handleClose_outcome c
  generalize handleClose c = o at ho ⊢
  cases ho with
  | refused h => exact absurd hlive h
  | unset _ hunset =>
    rw [hcb] at hunset
    cases hunset
  | closed => rfl

/-- A closed connection has nothing to write. -/
theorem isWriting_closed (c : TcpConnection β) : c.closed.channel.isWriting = false := by
  change decide (kNoneEvent &&& kWriteEvent ≠ 0) = false
  decide

theorem handleWrite_notWriting {c : TcpConnection β} (w : SysRet)
    (hoff : c.channel.isWriting = false) :
    handleWrite w c = ⟨.ok (), c, []⟩ := by
  rw [handleWrite.eq_def, Act.get_bind, Act.ite_apply, if_neg (by simp [hoff])]
  rfl

/-! ## `handleRead` -/

/-- The `readv` of `handleRead`. -/
def readvCall (c : TcpConnection β) : Effect β := .readv c.channel.fd

/-- `handleRead`. -/
inductive ReadOutcome (c : TcpConnection β) :
    ReadRet β → Outcome Abort (Effect β) (TcpConnection β) Unit → Prop
  | failed (e : Errno) :
      ReadOutcome c (.err e) ⟨.ok (), c, [c.readvCall, .getSocketError c.channel.fd]⟩
  | ended (b : Buffer β) (hb : b.Wf) :
      ReadOutcome c (.ok [])
        ((handleClose { c with inputBuffer := b }).after [c.readvCall])
  | received (data : List β) (hdata : data ≠ []) (hcb : c.messageCallback.isSome = true)
      (b : Buffer β) (hb : b.Wf) :
      ReadOutcome c (.ok data)
        ⟨.ok (), { c with inputBuffer := b }, [c.readvCall, .messageCallback]⟩
  | unset (data : List β) (hdata : data ≠ []) (hcb : c.messageCallback.isSome = false)
      (b : Buffer β) (hb : b.Wf) :
      ReadOutcome c (.ok data)
        ⟨.error .badFunctionCall, { c with inputBuffer := b }, [c.readvCall]⟩

/-- **Every outcome of `handleRead`.** -/
theorem handleRead_outcome [Inhabited β] {c : TcpConnection β} (hwf : c.inputBuffer.Wf)
    (r : ReadRet β) : ReadOutcome c r (handleRead r c) := by
  cases r with
  | err e => exact .failed e
  | ok received =>
    obtain ⟨b, hb, hbwf, -⟩ := Buffer.readFd_spec hwf received
    rw [handleRead, Act.get_bind, Act.emit_bind]
    simp only [hb, Act.need_some, Act.pure_bind, Act.modify_bind, Act.ite_apply]
    by_cases hnil : received = []
    · subst hnil
      exact .ended b hbwf
    · rw [if_neg hnil]
      cases hcb : c.messageCallback.isSome with
      | true => exact .received received hnil hcb b hbwf
      | false => exact .unset received hnil hcb b hbwf

/-- A read that ends a live connection closes it. -/
theorem handleRead_ended [Inhabited β] {c : TcpConnection β}
    (hlive : c.state = .kConnected ∨ c.state = .kDisconnecting) (hcb : c.closeCallback = true)
    (hwf : c.inputBuffer.Wf) :
    ∃ b, handleRead (.ok []) c =
      ⟨.ok (), TcpConnection.closed { c with inputBuffer := b }, c.readvCall :: c.closeCalls⟩ := by
  have ho := handleRead_outcome hwf (.ok [])
  generalize handleRead (.ok []) c = o at ho ⊢
  cases ho with
  | ended b _ =>
    have hclose := handleClose_live (c := { c with inputBuffer := b }) hlive hcb
    rw [hclose]
    exact ⟨b, rfl⟩
  | received _ hne | unset _ hne => exact absurd rfl hne

/-! ## The requests to close -/

/-- The connection after `shutdown`. -/
def shuttingDown (c : TcpConnection β) : TcpConnection β :=
  if c.state = .kConnected then { c with state := .kDisconnecting } else c

/-- What `shutdown` does. -/
def shutdownCalls (onLoop : Bool) (c : TcpConnection β) : List (Effect β) :=
  if c.state = .kConnected then
    if onLoop then c.halfClose else [.queueInLoop .shutdownInLoop]
  else []

theorem shutdown_apply (onLoop : Bool) (c : TcpConnection β) :
    shutdown onLoop c = ⟨.ok (), c.shuttingDown, c.shutdownCalls onLoop⟩ := by
  rw [shutdown, Act.get_bind, Act.ite_apply, shuttingDown, shutdownCalls]
  by_cases hs : c.state = .kConnected
  · rw [if_pos hs, if_pos hs, if_pos hs, setState, Act.modify_bind, runInLoop, Act.ite_apply]
    cases onLoop
    · rfl
    · exact shutdownInLoop_apply _
  · rw [if_neg hs, if_neg hs, if_neg hs]
    rfl

/-- The connection after `forceClose`. -/
def forceClosing (c : TcpConnection β) : TcpConnection β :=
  if c.state = .kConnected ∨ c.state = .kDisconnecting then { c with state := .kDisconnecting }
  else c

/-- What `forceClose` does. -/
def forceCloseCalls (c : TcpConnection β) : List (Effect β) :=
  if c.state = .kConnected ∨ c.state = .kDisconnecting then [.queueInLoop .forceCloseInLoop]
  else []

theorem forceClose_apply (c : TcpConnection β) :
    forceClose c = ⟨.ok (), c.forceClosing, c.forceCloseCalls⟩ := by
  rw [forceClose, Act.get_bind, Act.ite_apply, forceClosing, forceCloseCalls]
  by_cases hs : c.state = .kConnected ∨ c.state = .kDisconnecting
  · rw [if_pos hs, if_pos hs, if_pos hs]
    rfl
  · rw [if_neg hs, if_neg hs, if_neg hs]
    rfl

end TcpConnection

end Cannet.Net
