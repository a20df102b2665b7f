import Cannet.Net.Connection.Calls

/-!
# What the output side leaves alone

The functions that move bytes out of a connection (`sendInLoop`, `handleWrite` and what they call)
write, register interest and queue completions, and change the channel, the output buffer and the
attached file. An invariant that does not look at those is kept by all of them, whatever the
kernel answers and whether they return or not.

Most of the rest also leaves alone how a connection is opened and closed: `CallFrame` is for the
invariants that look at nothing else.
-/

namespace Cannet.Net

open Foundations

variable {β : Type}

/-- What the output side does outside the connection. -/
def Effect.isOutput : Effect β → Bool
  | .epollCtl .. | .write .. | .sendfile .. | .shutdownWrite _
  | .queueInLoop .writeCompleteCallback => true
  | _ => false

/-- An invariant that does not look at what the output side changes. -/
structure OutputFrame (J : List (Effect β) → TcpConnection β → Prop) : Prop where
  emit : ∀ e : Effect β, e.isOutput = true → ∀ es c, J es c → J (es ++ [e]) c
  channel : ∀ ch es c, J es c → J es { c with channel := ch }
  outputBuffer : ∀ b es c, J es c → J es { c with outputBuffer := b }
  sendFile : ∀ file es c, J es c → J es { c with sendFile := file }

namespace OutputFrame

open TcpConnection

variable {J : List (Effect β) → TcpConnection β → Prop} (h : OutputFrame J)

include h

theorem keeps_enableEvents (events : BitVec 32) :
    (onChannel (Channel.enableEvents events)).Keeps J := by
  intro es c hc
  rw [onChannel_apply (by rw [Channel.enableEvents_apply, Channel.update_apply])]
  exact h.channel _ _ _ (h.emit _ rfl _ _ hc)

theorem keeps_disableEvents (events : BitVec 32) :
    (onChannel (Channel.disableEvents events)).Keeps J := by
  intro es c hc
  rw [onChannel_apply (by rw [Channel.disableEvents_apply, Channel.update_apply])]
  exact h.channel _ _ _ (h.emit _ rfl _ _ hc)

theorem keeps_onOutputBuffer (op : Buffer β → Option (Buffer β)) :
    (onOutputBuffer op).Keeps J :=
  .bind .get fun _ => .bind (.need _ _) fun _ => .modify fun _ _ => h.outputBuffer _ _ _

theorem keeps_sendFileReset : sendFileReset.Keeps J := .modify fun _ _ => h.sendFile _ _ _

theorem keeps_queueWriteComplete : queueWriteComplete.Keeps J :=
  .bind .get fun _ => .ite (.emit (h.emit _ rfl)) (.pure ())

theorem keeps_enableWriting : enableWriting.Keeps J :=
  .bind .get fun _ => .ite (h.keeps_enableEvents _) (.pure ())

theorem keeps_directWrite [Inhabited β] (w : SysRet) (data : List β) (len : ℕ) :
    (directWrite w data len).Keeps J := by
  refine .bind .get fun c => .ite (.bind (.need _ _) fun bytes => .bind (.emit (h.emit _ rfl))
    fun _ => ?_) (.pure _)
  cases w with
  | ok n =>
    cases c.sendFile with
    | none => exact .ite (.bind h.keeps_queueWriteComplete fun _ => .pure _) (.pure _)
    | some file => exact .ite (.bind h.keeps_queueWriteComplete fun _ => .pure _) (.pure _)
  | err e => exact .pure _

theorem keeps_directSendfile (f : SysRet) (file : SendFileUtil) :
    (directSendfile f file).Keeps J := by
  refine .bind .get fun c => .bind (.emit (h.emit _ rfl)) fun _ => ?_
  cases f with
  | ok n =>
    exact .bind (.modify fun _ _ => h.sendFile _ _ _) fun _ =>
      .ite (.bind h.keeps_sendFileReset fun _ => .bind h.keeps_queueWriteComplete fun _ => .pure _)
        (.pure _)
  | err e => exact .pure _

theorem keeps_sendFileInLoop (f : SysRet) (file : SendFileUtil) :
    (sendFileInLoop f file).Keeps J :=
  .bind (h.keeps_directSendfile f file) fun _ => .bind .get fun _ => .bind (.need _ _) fun _ =>
    .bind (.check _ _) fun _ => .ite h.keeps_enableWriting (.pure ())

theorem keeps_shutdownInLoop : shutdownInLoop.Keeps J :=
  .bind .get fun _ => .ite (.emit (h.emit _ rfl)) (.pure ())

theorem keeps_outputSent : outputSent.Keeps J :=
  .bind (h.keeps_disableEvents _) fun _ => .bind h.keeps_queueWriteComplete fun _ =>
    .bind .get fun _ => .ite h.keeps_shutdownInLoop (.pure ())

/-- **`handleWrite`** keeps what the output side leaves alone. -/
theorem keeps_handleWrite (r : SysRet) : (handleWrite r).Keeps J := by
  rw [handleWrite.eq_def]
  refine .bind .get fun c => .ite (.ite (.bind (.emit (h.emit _ rfl)) fun _ => ?_) ?_) (.pure ())
  · cases r with
    | ok n =>
      exact .ite (.bind (h.keeps_onOutputBuffer _) fun _ => .bind .get fun _ =>
        .ite h.keeps_outputSent (.pure ())) (.pure ())
    | err e => exact .pure ()
  · cases c.sendFile with
    | none => exact .pure ()
    | some file =>
      refine .bind (.emit (h.emit _ rfl)) fun _ => ?_
      cases r with
      | ok n =>
        exact .ite (.bind (.modify fun _ _ => h.sendFile _ _ _) fun _ =>
          .ite (.bind h.keeps_sendFileReset fun _ => h.keeps_outputSent) (.pure ())) (.pure ())
      | err e => exact .pure ()

end OutputFrame

open TcpConnection in
/-- **After its entry `sendInLoop`** keeps what the output side leaves alone. -/
theorem sendInLoop_entry [Inhabited β] (w f : SysRet) (data : List β) (len : ℕ) :
    ∃ rest : Conn β Unit,
      sendInLoop w f data len = (do Act.emit (.sendInLoop data len); rest) ∧
        ∀ J : List (Effect β) → TcpConnection β → Prop, OutputFrame J → rest.Keeps J := by
  refine ⟨_, rfl, fun J h => .bind .get fun c => .ite (.pure ()) (.bind (h.keeps_directWrite _ _ _)
    fun d => .bind (.check _ _) fun _ => .ite (.bind (.need _ _) fun _ =>
      .bind (h.keeps_onOutputBuffer _) fun _ => h.keeps_enableWriting) ?_)⟩
  cases c.sendFile with
  | none => exact .pure ()
  | some file => exact h.keeps_sendFileInLoop f file

/-! ## What opens and closes a connection -/

/-- What opening and closing a connection does outside it. -/
def Effect.isLifecycle : Effect β → Bool
  | .recycle _ | .close _ | .setKeepAlive _ | .connectionCallback _ => true
  | _ => false

/-- An invariant that looks at the opening and closing of a connection only. -/
structure CallFrame (J : List (Effect β) → TcpConnection β → Prop) : Prop where
  emit : ∀ e : Effect β, e.isLifecycle = false → ∀ es c, J es c → J (es ++ [e]) c
  channel : ∀ ch es c, J es c → J es { c with channel := ch }
  inputBuffer : ∀ b es c, J es c → J es { c with inputBuffer := b }
  outputBuffer : ∀ b es c, J es c → J es { c with outputBuffer := b }
  sendFile : ∀ file es c, J es c → J es { c with sendFile := file }
  reading : ∀ reading es c, J es c → J es { c with reading := reading }

namespace CallFrame

open TcpConnection

variable {J : List (Effect β) → TcpConnection β → Prop} (h : CallFrame J)

include h

theorem output : OutputFrame J where
  emit e he := by
    apply h.emit
    cases e <;> first | rfl | cases he
  channel := h.channel
  outputBuffer := h.outputBuffer
  sendFile := h.sendFile

theorem keeps_sendInLoop [Inhabited β] (w f : SysRet) (data : List β) (len : ℕ) :
    (sendInLoop w f data len).Keeps J := by
  obtain ⟨rest, hsend, hrest⟩ := sendInLoop_entry w f data len
  rw [hsend]
  exact .bind (.emit (h.emit _ rfl)) fun _ => hrest J h.output

theorem keeps_runInLoop (onLoop : Bool) (functor : Functor β) {call : Conn β Unit}
    (hcall : call.Keeps J) : (runInLoop onLoop functor call).Keeps J :=
  .ite hcall (.emit (h.emit _ rfl))

theorem keeps_send [Inhabited β] (onLoop : Bool) (w f : SysRet) (message : List β) :
    (send onLoop w f message).Keeps J :=
  .bind .get fun _ => .ite (.ite (h.keeps_sendInLoop _ _ _ _) (.pure ()))
    (h.keeps_runInLoop _ _ (h.keeps_sendInLoop _ _ _ _))

theorem keeps_startReadInLoop : (startReadInLoop (β := β)).Keeps J :=
  .bind .get fun _ => .ite (.bind (h.output.keeps_enableEvents _) fun _ =>
    .modify (h.reading true)) (.pure ())

theorem keeps_stopReadInLoop : (stopReadInLoop (β := β)).Keeps J :=
  .bind .get fun _ => .ite (.bind (h.output.keeps_disableEvents _) fun _ =>
    .modify (h.reading false)) (.pure ())

theorem keeps_handleError : (handleError (β := β)).Keeps J :=
  .bind .get fun _ => .emit (h.emit _ rfl)

/-- A read keeps what closing the connection keeps. -/
theorem keeps_handleRead [Inhabited β] (hclose : (handleClose (β := β)).Keeps J) (r : ReadRet β) :
    (handleRead r).Keeps J := by
  refine .bind .get fun c => .bind (.emit (h.emit _ rfl)) fun _ => ?_
  cases r with
  | ok received =>
    refine .bind (.need _ _) fun b => .bind (.modify (h.inputBuffer b)) fun _ => ?_
    exact .ite hclose (.ite (.emit (h.emit _ rfl)) (.abort _))
  | err e => exact h.keeps_handleError

end CallFrame

end Cannet.Net
