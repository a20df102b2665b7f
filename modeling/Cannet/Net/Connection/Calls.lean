import Cannet.Net.TcpConnection

/-!
# What the calls on a connection can do

For each function of the output side, every outcome it can have: the connection after it and its
trace. `sendInLoop` is followed through its direct write (`Direct`) and its file branch
(`FileOutcome`); `WriteOutcome` is for `handleWrite`. The invariants of the output side are
derived from these and never unfold the functions again.
-/

namespace Cannet.Net

open Foundations

variable {β : Type}

/-- What the kernel may answer: no more than it was asked for. -/
def Effect.Legal : Effect β → Prop
  | .write _ data (.ok n) => n ≤ data.length
  | .sendfile _ _ _ count (.ok n) => n ≤ count
  | _ => True

instance : DecidablePred (Effect.Legal (β := β))
  | .write _ data (.ok n) => inferInstanceAs (Decidable (n ≤ data.length))
  | .write _ _ (.err _) => isTrue trivial
  | .sendfile _ _ _ count (.ok n) => inferInstanceAs (Decidable (n ≤ count))
  | .sendfile _ _ _ _ (.err _) => isTrue trivial
  | .epollCtl .. | .recycle _ | .close _ | .readv _ | .shutdownWrite _ | .setKeepAlive _
  | .setTcpNoDelay .. | .getSocketError _ | .connectionCallback _ | .messageCallback
  | .sendInLoop .. | .queueInLoop _ => isTrue trivial

/-- The bytes a system call moved. -/
def SysRet.count : SysRet → ℕ
  | .ok n => n
  | .err _ => 0

/-- The call has failed with `EPIPE` or `ECONNRESET`. -/
def SysRet.isFault : SysRet → Bool
  | .ok _ => false
  | .err e => e.isFault

namespace Channel

/-- The channel with write interest on. -/
def writingOn (ch : Channel) : Channel :=
  if ch.isWriting then ch else updated { ch with events := ch.events ||| kWriteEvent }

/-- The channel with write interest off. -/
def writingOff (ch : Channel) : Channel :=
  updated { ch with events := ch.events &&& ~~~kWriteEvent }

/-- The `epoll_ctl` that turns write interest on. -/
def writingOnCalls (ch : Channel) : List (Effect β) :=
  if ch.isWriting then [] else [updateCall { ch with events := ch.events ||| kWriteEvent }]

/-- The `epoll_ctl` that turns write interest off. -/
def writingOffCalls (ch : Channel) : List (Effect β) :=
  [updateCall { ch with events := ch.events &&& ~~~kWriteEvent }]

@[simp] theorem isWriting_writingOn (ch : Channel) : ch.writingOn.isWriting = true := by
  unfold writingOn
  split
  · assumption
  · rw [isWriting_updated, isWriting_enable_write]

@[simp] theorem isWriting_writingOff (ch : Channel) : ch.writingOff.isWriting = false := by
  rw [writingOff, isWriting_updated, isWriting_disable_write]

end Channel

namespace TcpConnection

/-- The functor queued by `queueWriteComplete`, if any. -/
def completion (c : TcpConnection β) : List (Effect β) :=
  if c.writeCompleteCallback.isSome then [.queueInLoop .writeCompleteCallback] else []

theorem queueWriteComplete_apply (c : TcpConnection β) :
    queueWriteComplete c = ⟨.ok (), c, c.completion⟩ := by
  simp only [queueWriteComplete, Act.get_bind, completion]
  split <;> rfl

/-- The half-close issued by `shutdownInLoop`, if any. -/
def halfClose (c : TcpConnection β) : List (Effect β) :=
  if c.channel.isWriting then [] else [.shutdownWrite c.sockFd]

theorem shutdownInLoop_apply (c : TcpConnection β) :
    shutdownInLoop c = ⟨.ok (), c, c.halfClose⟩ := by
  simp only [shutdownInLoop, Act.get_bind, halfClose]
  cases c.channel.isWriting <;> rfl

theorem onChannel_apply {x : Act Abort (Effect β) Channel Unit} {c : TcpConnection β}
    {ch : Channel} {v : Except Abort Unit} {es : List (Effect β)} (h : x c.channel = ⟨v, ch, es⟩) :
    onChannel x c = ⟨v, { c with channel := ch }, es⟩ := by
  simp only [onChannel, Act.zoom, h]

theorem enableWriting_apply (c : TcpConnection β) :
    enableWriting c =
      ⟨.ok (), { c with channel := c.channel.writingOn }, c.channel.writingOnCalls⟩ := by
  rw [enableWriting, Act.get_bind, Act.ite_apply, Channel.writingOn, Channel.writingOnCalls]
  by_cases h : c.channel.isWriting = true
  · rw [if_neg (not_not.2 h), if_pos h, if_pos h]
    rfl
  · rw [if_pos h, if_neg h, if_neg h]
    exact onChannel_apply (by rw [Channel.enableEvents_apply, Channel.update_apply])

theorem onOutputBuffer_apply {op : Buffer β → Option (Buffer β)} {c : TcpConnection β}
    {b : Buffer β} (h : op c.outputBuffer = some b) :
    onOutputBuffer op c = ⟨.ok (), { c with outputBuffer := b }, []⟩ := by
  simp only [onOutputBuffer, Act.get_bind, h, Act.need_some]
  rfl

/-- What `outputSent` does after its `epoll_ctl`. -/
def sentCalls (c : TcpConnection β) : List (Effect β) :=
  c.completion ++ if c.state = .kDisconnecting then [.shutdownWrite c.sockFd] else []

theorem outputSent_apply (c : TcpConnection β) :
    outputSent c = ⟨.ok (), { c with channel := c.channel.writingOff },
      c.channel.writingOffCalls ++ c.sentCalls⟩ := by
  have hoff : onChannel (Channel.disableEvents kWriteEvent) c =
      ⟨.ok (), { c with channel := c.channel.writingOff }, c.channel.writingOffCalls⟩ :=
    onChannel_apply (by
      rw [Channel.disableEvents_apply, Channel.update_apply]
      rfl)
  rw [outputSent, Act.bind_ok hoff, Act.bind_ok (queueWriteComplete_apply _), Act.get_bind,
    sentCalls]
  by_cases hs : c.state = .kDisconnecting
  · simp [hs, shutdownInLoop_apply, halfClose, completion]
  · simp [hs, completion]

/-! ## `sendInLoop` -/

/-- The bytes of the attached file still to be sent. -/
def fileLeft (c : TcpConnection β) : ℕ :=
  match c.sendFile with
  | none => 0
  | some file => file.sendLen

/-- The direct write of `data`: not made, made, or failed. -/
inductive Direct (w : SysRet) (data : List β) (c : TcpConnection β) :
    Written → List (Effect β) → Prop
  | skipped (h : c.channel.isWriting = true ∨ c.outputBuffer.readable ≠ []) :
      Direct w data c ⟨0, data.length, false⟩ []
  | wrote (n : ℕ) (hw : w = .ok n) (hoff : c.channel.isWriting = false)
      (hempty : c.outputBuffer.readable = []) :
      Direct w data c ⟨n, data.length - n, false⟩ (.write c.channel.fd data w ::
        if data.length ≤ n ∧ c.fileLeft = 0 then c.completion else [])
  | failed (e : Errno) (hw : w = .err e) (hoff : c.channel.isWriting = false)
      (hempty : c.outputBuffer.readable = []) :
      Direct w data c ⟨0, data.length, e.isFault⟩ [.write c.channel.fd data w]

theorem Direct.remaining_eq {w : SysRet} {data : List β} {c : TcpConnection β} {d : Written}
    {es : List (Effect β)} (h : Direct w data c d es) :
    d.remaining = data.length - d.nwrote := by
  cases h <;> rfl

theorem cStr_rest [Inhabited β] (data : List β) {n : ℕ} (h : n ≤ data.length) :
    cStr data n (data.length - n) = some (data.drop n) := by
  have hbounds : n + (data.length - n) ≤ (data ++ [default]).length := by simp; omega
  rw [cStr, if_pos hbounds, List.drop_append_of_le_length h,
    List.take_left' List.length_drop]

theorem cStr_all [Inhabited β] (data : List β) : cStr data 0 data.length = some data :=
  cStr_rest data (Nat.zero_le _)

theorem directWrite_spec [Inhabited β] (w : SysRet) (data : List β) {c : TcpConnection β}
    (hwf : c.outputBuffer.Wf) :
    ∃ d es, directWrite w data data.length c = ⟨.ok d, c, es⟩ ∧ Direct w data c d es := by
  rw [directWrite, Act.get_bind, Act.ite_apply]
  by_cases h : ¬c.channel.isWriting = true ∧ c.outputBuffer.readableBytes = 0
  · rw [if_pos h, cStr_all, Act.need_some, Act.pure_bind, Act.emit_bind]
    have hoff : c.channel.isWriting = false := Bool.eq_false_iff.2 h.1
    have hempty := hwf.readableBytes_eq_zero.1 h.2
    cases hw : w with
    | ok n =>
      refine ⟨_, _, ?_, .wrote n rfl hoff hempty⟩
      have hle : data.length - n = 0 ↔ data.length ≤ n := Nat.sub_eq_zero_iff_le
      cases hfile : c.sendFile with
      | none =>
        simp only [fileLeft, hfile, hle, and_true]
        split
        · rw [Act.bind_ok (queueWriteComplete_apply c)]
          simp
        · rfl
      | some file =>
        simp only [fileLeft, hfile, hle]
        split
        · rw [Act.bind_ok (queueWriteComplete_apply c)]
          simp
        · rfl
    | err e => exact ⟨_, _, rfl, .failed e rfl hoff hempty⟩
  · rw [if_neg h]
    refine ⟨_, _, rfl, .skipped ?_⟩
    by_contra hno
    push Not at hno
    exact h ⟨by simpa using hno.1, hwf.readableBytes_eq_zero.2 hno.2⟩

end TcpConnection

/-- The file after `n` bytes went out: the kernel has advanced the offset, and the code does so
once more. -/
def SendFileUtil.sent (n : ℕ) (file : SendFileUtil) : SendFileUtil :=
  { file with sendLen := file.sendLen - n, offset := file.offset + n + n }

namespace TcpConnection

/-- The `sendfile` issued for the attached file. -/
def sendfileCall (f : SysRet) (file : SendFileUtil) (c : TcpConnection β) : Effect β :=
  .sendfile c.channel.fd file.inFd file.offset file.sendLen f

/-- The file branch of `sendInLoop`. -/
inductive FileOutcome (f : SysRet) (file : SendFileUtil) (c : TcpConnection β) :
    Outcome Abort (Effect β) (TcpConnection β) Unit → Prop
  | failed (e : Errno) (hf : f = .err e) (h : e.isFault = true ∨ file.sendLen = 0) :
      FileOutcome f file c ⟨.ok (), c, [sendfileCall f file c]⟩
  | blocked (e : Errno) (hf : f = .err e) (he : e.isFault = false) (hlen : 0 < file.sendLen) :
      FileOutcome f file c ⟨.ok (), { c with channel := c.channel.writingOn },
        sendfileCall f file c :: c.channel.writingOnCalls⟩
  | short (n : ℕ) (hf : f = .ok n) (hn : n < file.sendLen) :
      FileOutcome f file c
        ⟨.ok (), { c with sendFile := some (file.sent n), channel := c.channel.writingOn },
          sendfileCall f file c :: c.channel.writingOnCalls⟩
  | sent (n : ℕ) (hf : f = .ok n) (hn : file.sendLen ≤ n)
      (hcb : c.writeCompleteCallback.isSome = false) :
      FileOutcome f file c
        ⟨.ok (), { c with sendFile := some (file.sent n) }, [sendfileCall f file c]⟩
  | released (n : ℕ) (hf : f = .ok n) (hn : file.sendLen ≤ n)
      (hcb : c.writeCompleteCallback.isSome = true) :
      FileOutcome f file c ⟨.error .nullDereference, { c with sendFile := none },
        [sendfileCall f file c, .queueInLoop .writeCompleteCallback]⟩

theorem FileOutcome.sendfileCall_mem {f : SysRet} {file : SendFileUtil} {c : TcpConnection β}
    {o : Outcome Abort (Effect β) (TcpConnection β) Unit} (ho : FileOutcome f file c o) :
    sendfileCall f file c ∈ o.trace := by
  cases ho <;> exact List.mem_cons_self

theorem directSendfile_err (e : Errno) (file : SendFileUtil) (c : TcpConnection β) :
    directSendfile (.err e) file c =
      ⟨.ok (file.sendLen, e.isFault), c, [sendfileCall (.err e) file c]⟩ := rfl

theorem directSendfile_ok (n : ℕ) (file : SendFileUtil) (c : TcpConnection β) :
    directSendfile (.ok n) file c =
      if file.sendLen - n = 0 ∧ c.writeCompleteCallback.isSome then
        ⟨.ok (0, false), { c with sendFile := none },
          [sendfileCall (.ok n) file c, .queueInLoop .writeCompleteCallback]⟩
      else
        ⟨.ok (file.sendLen - n, false), { c with sendFile := some (file.sent n) },
          [sendfileCall (.ok n) file c]⟩ := by
  rw [directSendfile, Act.get_bind, Act.emit_bind]
  simp only [Act.modify_bind, Act.ite_apply]
  have hlen : (kernelAdvance n file).sendLen = file.sendLen := rfl
  rw [hlen]
  by_cases h : file.sendLen - n = 0 ∧ c.writeCompleteCallback.isSome = true
  · rw [if_pos h, if_pos h, sendFileReset, Act.modify_bind,
      Act.bind_ok (queueWriteComplete_apply _)]
    simp only [completion, h.2, if_true, h.1]
    rfl
  · rw [if_neg h, if_neg h]
    rfl

theorem sendFileInLoop_outcome (f : SysRet) {file : SendFileUtil} {c : TcpConnection β}
    (hfile : c.sendFile = some file) : FileOutcome f file c (sendFileInLoop f file c) := by
  rw [sendFileInLoop]
  cases hf : f with
  | err e =>
    rw [Act.bind_ok (directSendfile_err e file c)]
    simp only [Act.get_bind, hfile, Act.need_some, Act.pure_bind, Act.check_pos _ (Nat.le_refl _)]
    rw [Act.ite_apply]
    by_cases h : ¬e.isFault = true ∧ 0 < file.sendLen
    · rw [if_pos h, enableWriting_apply]
      exact .blocked e rfl (Bool.eq_false_iff.2 h.1) h.2
    · rw [if_neg h]
      apply FileOutcome.failed e rfl
      by_contra hno
      push Not at hno
      exact h ⟨hno.1, Nat.pos_of_ne_zero hno.2⟩
  | ok n =>
    have hok := directSendfile_ok n file c
    split at hok
    · -- the file is released, and the assertion that follows reads it
      rename_i h
      rw [Act.bind_ok hok]
      exact .released n rfl (Nat.sub_eq_zero_iff_le.1 h.1) h.2
    · rename_i h
      rw [Act.bind_ok hok]
      have hlen : file.sendLen - n ≤ (file.sent n).sendLen := Nat.le_refl _
      simp only [Act.get_bind, Act.need_some, Act.pure_bind, Act.check_pos _ hlen]
      rw [Act.ite_apply]
      by_cases hn : n < file.sendLen
      · rw [if_pos ⟨by simp, by omega⟩, enableWriting_apply]
        exact .short n rfl hn
      · rw [if_neg (fun h' => by omega)]
        apply FileOutcome.sent n rfl (Nat.le_of_not_lt hn)
        by_contra hcb
        exact h ⟨by omega, eq_true_of_ne_false hcb⟩

/-- `sendInLoop` with the length of its data. -/
inductive SendOutcome (w f : SysRet) (data : List β) (c : TcpConnection β) :
    Outcome Abort (Effect β) (TcpConnection β) Unit → Prop
  | disconnected (h : c.state = .kDisconnected) :
      SendOutcome w f data c ⟨.ok (), c, [.sendInLoop data data.length]⟩
  | buffered (d : Written) (es : List (Effect β)) (hd : Direct w data c d es)
      (hfault : d.faultError = false) (hrest : d.nwrote < data.length) (b : Buffer β)
      (hb : b.Wf) (hread : b.readable = c.outputBuffer.readable ++ data.drop d.nwrote) :
      SendOutcome w f data c
        ⟨.ok (), { c with outputBuffer := b, channel := c.channel.writingOn },
          .sendInLoop data data.length :: es ++ c.channel.writingOnCalls⟩
  | finished (d : Written) (es : List (Effect β)) (hd : Direct w data c d es)
      (hdone : d.faultError = true ∨ data.length ≤ d.nwrote) (hfile : c.sendFile = none) :
      SendOutcome w f data c ⟨.ok (), c, .sendInLoop data data.length :: es⟩
  | file (d : Written) (es : List (Effect β)) (hd : Direct w data c d es)
      (hdone : d.faultError = true ∨ data.length ≤ d.nwrote) (file : SendFileUtil)
      (hfile : c.sendFile = some file) (o : Outcome Abort (Effect β) (TcpConnection β) Unit)
      (ho : FileOutcome f file c o) :
      SendOutcome w f data c (o.after (.sendInLoop data data.length :: es))

/-- **Every outcome of `sendInLoop`.** -/
theorem sendInLoop_outcome [Inhabited β] (w f : SysRet) (data : List β) {c : TcpConnection β}
    (hwf : c.outputBuffer.Wf) :
    SendOutcome w f data c (sendInLoop w f data data.length c) := by
  rw [sendInLoop, Act.emit_bind, Act.get_bind, Act.ite_apply]
  by_cases hs : c.state = .kDisconnected
  · rw [if_pos hs]
    exact .disconnected hs
  rw [if_neg hs]
  obtain ⟨d, es, hdw, hd⟩ := directWrite_spec w data hwf
  have hrem := hd.remaining_eq
  have hle : d.remaining ≤ data.length := by omega
  rw [Act.bind_ok hdw, Act.check_pos _ hle, Act.pure_bind, Act.ite_apply]
  by_cases hrest : ¬d.faultError = true ∧ 0 < d.remaining
  · have hn : d.nwrote < data.length := by omega
    obtain ⟨b, hb, hbwf, hread⟩ := Buffer.append_spec hwf (data.drop d.nwrote)
    rw [if_pos hrest, hrem, cStr_rest data (Nat.le_of_lt hn), Act.need_some, Act.pure_bind,
      Act.bind_ok (onOutputBuffer_apply (c := c) (b := b) hb), enableWriting_apply]
    have := SendOutcome.buffered (f := f) d es hd (Bool.eq_false_iff.2 hrest.1) hn b hbwf hread
    simpa using this
  · have hdone : d.faultError = true ∨ data.length ≤ d.nwrote := by
      by_contra hno
      push Not at hno
      exact hrest ⟨hno.1, by omega⟩
    rw [if_neg hrest]
    cases hfile : c.sendFile with
    | none => simpa using SendOutcome.finished (f := f) d es hd hdone hfile
    | some file =>
      have := SendOutcome.file d es hd hdone file hfile _ (sendFileInLoop_outcome f hfile)
      simpa [Outcome.after] using this

/-- On the loop's thread a live connection hands the message to `sendInLoop`, whatever its
state. -/
theorem send_live [Inhabited β] (w f : SysRet) (message : List β) {c : TcpConnection β}
    (hlive : c.state = .kConnected ∨ c.state = .kDisconnecting) :
    send true w f message c = sendInLoop w f message message.length c := by
  rw [send, Act.get_bind]
  rcases hlive with hs | hs
  · simp only [hs, if_true]
  · simp only [hs, runInLoop, if_true]
    rfl

/-! ## The reads -/

/-- `startRead` and `stopRead`: the read interest changes, the write interest does not. -/
inductive ReadsOutcome (c : TcpConnection β) :
    Outcome Abort (Effect β) (TcpConnection β) Unit → Prop
  | same : ReadsOutcome c ⟨.ok (), c, []⟩
  | toggled (ch : Channel) (reading : Bool) (op : EpollOp) (fd : ℤ) (events : BitVec 32)
      (hch : ch.isWriting = c.channel.isWriting) :
      ReadsOutcome c
        ⟨.ok (), { c with channel := ch, reading := reading }, [.epollCtl op fd events]⟩

theorem startRead_outcome (c : TcpConnection β) : ReadsOutcome c (startRead true c) := by
  rw [startRead, runInLoop, if_pos rfl, startReadInLoop, Act.get_bind, Act.ite_apply]
  split
  · rw [Act.bind_ok (onChannel_apply (by rw [Channel.enableEvents_apply, Channel.update_apply]))]
    exact .toggled _ true _ _ _ (Channel.isWriting_enable_read c.channel)
  · exact .same

theorem stopRead_outcome (c : TcpConnection β) : ReadsOutcome c (stopRead true c) := by
  rw [stopRead, runInLoop, if_pos rfl, stopReadInLoop, Act.get_bind, Act.ite_apply]
  split
  · rw [Act.bind_ok (onChannel_apply (by rw [Channel.disableEvents_apply, Channel.update_apply]))]
    exact .toggled _ false _ _ _ (Channel.isWriting_disable_read c.channel)
  · exact .same

/-! ## `handleWrite` -/

/-- `handleWrite`, when the kernel accepts no more than it is offered. -/
inductive WriteOutcome (r : SysRet) (c : TcpConnection β) :
    Outcome Abort (Effect β) (TcpConnection β) Unit → Prop
  | idle (hoff : c.channel.isWriting = false) : WriteOutcome r c ⟨.ok (), c, []⟩
  | nothing (hon : c.channel.isWriting = true) (hempty : c.outputBuffer.readable = [])
      (hfile : c.sendFile = none) : WriteOutcome r c ⟨.ok (), c, []⟩
  | failed (hon : c.channel.isWriting = true) (hne : c.outputBuffer.readable ≠ [])
      (hr : r.count = 0) :
      WriteOutcome r c ⟨.ok (), c, [.write c.channel.fd c.outputBuffer.readable r]⟩
  | short (hon : c.channel.isWriting = true) (n : ℕ) (hr : r = .ok n) (hpos : 0 < n)
      (hn : n < c.outputBuffer.readable.length) (b : Buffer β) (hb : b.Wf)
      (hread : b.readable = c.outputBuffer.readable.drop n) :
      WriteOutcome r c ⟨.ok (), { c with outputBuffer := b },
        [.write c.channel.fd c.outputBuffer.readable r]⟩
  | drained (hon : c.channel.isWriting = true) (hr : r = .ok c.outputBuffer.readable.length)
      (hne : c.outputBuffer.readable ≠ []) (b : Buffer β) (hb : b.Wf) (hread : b.readable = []) :
      WriteOutcome r c ⟨.ok (), { c with outputBuffer := b, channel := c.channel.writingOff },
        .write c.channel.fd c.outputBuffer.readable r ::
          (c.channel.writingOffCalls ++ c.sentCalls)⟩
  | fileFailed (hon : c.channel.isWriting = true) (hempty : c.outputBuffer.readable = [])
      (file : SendFileUtil) (hfile : c.sendFile = some file) (hr : r.count = 0) :
      WriteOutcome r c ⟨.ok (), c, [sendfileCall r file c]⟩
  | fileShort (hon : c.channel.isWriting = true) (hempty : c.outputBuffer.readable = [])
      (file : SendFileUtil) (hfile : c.sendFile = some file) (n : ℕ) (hr : r = .ok n)
      (hpos : 0 < n) (hn : n < file.sendLen) :
      WriteOutcome r c
        ⟨.ok (), { c with sendFile := some (file.sent n) }, [sendfileCall r file c]⟩
  | fileSent (hon : c.channel.isWriting = true) (hempty : c.outputBuffer.readable = [])
      (file : SendFileUtil) (hfile : c.sendFile = some file) (n : ℕ) (hr : r = .ok n)
      (hpos : 0 < n) (hn : file.sendLen ≤ n) :
      WriteOutcome r c ⟨.ok (), { c with sendFile := none, channel := c.channel.writingOff },
        sendfileCall r file c :: (c.channel.writingOffCalls ++ c.sentCalls)⟩

/-- The write of `handleWrite`, when some bytes are buffered. -/
theorem handleWrite_buffered {r : SysRet} {c : TcpConnection β} (hwf : c.outputBuffer.Wf)
    (hon : c.channel.isWriting = true) (hne : c.outputBuffer.readable ≠ [])
    (hr : ∀ n, r = .ok n → n ≤ c.outputBuffer.readable.length) :
    WriteOutcome r c (handleWrite r c) := by
  have hpos : 0 < c.outputBuffer.readableBytes :=
    Nat.pos_of_ne_zero fun h => hne (hwf.readableBytes_eq_zero.1 h)
  rw [handleWrite.eq_def, Act.get_bind, if_pos hon, if_pos hpos, Act.emit_bind]
  cases hr' : r with
  | err e => exact .failed hon hne rfl
  | ok n =>
    have hle := hr n hr'
    rcases Nat.eq_zero_or_pos n with rfl | hn
    · exact .failed hon hne rfl
    obtain ⟨b, hb, hbwf, hread⟩ := Buffer.retrieve_spec hwf hle
    simp only [if_pos hn]
    rw [Act.bind_ok (onOutputBuffer_apply (c := c) (b := b) hb), Act.get_bind, Act.ite_apply]
    by_cases h0 : b.readableBytes = 0
    · have hnil := hbwf.readableBytes_eq_zero.1 h0
      have hlen : n = c.outputBuffer.readable.length := by
        rw [hnil] at hread
        have := List.drop_eq_nil_iff.1 hread.symm
        omega
      subst hlen
      rw [if_pos h0, outputSent_apply]
      exact .drained hon rfl hne b hbwf hnil
    · have hlt : n < c.outputBuffer.readable.length := by
        by_contra hge
        rw [List.drop_eq_nil_of_le (by omega)] at hread
        exact h0 (hbwf.readableBytes_eq_zero.2 hread)
      rw [if_neg h0]
      exact .short hon n rfl hn hlt b hbwf hread

/-- The `sendfile` of `handleWrite`, when nothing is buffered. -/
theorem handleWrite_file {r : SysRet} {c : TcpConnection β} (hwf : c.outputBuffer.Wf)
    (hon : c.channel.isWriting = true) (hempty : c.outputBuffer.readable = []) :
    WriteOutcome r c (handleWrite r c) := by
  have hzero : ¬0 < c.outputBuffer.readableBytes := by
    rw [hwf.readableBytes_eq_zero.2 hempty]
    omega
  rw [handleWrite.eq_def, Act.get_bind, if_pos hon, if_neg hzero]
  cases hfile : c.sendFile with
  | none => exact .nothing hon hempty hfile
  | some file =>
    simp only [Act.emit_bind]
    cases hr' : r with
    | err e => exact .fileFailed hon hempty file hfile rfl
    | ok n =>
      rcases Nat.eq_zero_or_pos n with rfl | hn
      · exact .fileFailed hon hempty file hfile rfl
      simp only [if_pos hn, Act.modify_bind, Act.ite_apply]
      have hlen : (kernelAdvance n file).sendLen = file.sendLen := rfl
      by_cases h0 : file.sendLen - n = 0
      · rw [hlen, if_pos h0, sendFileReset, Act.modify_bind, outputSent_apply]
        exact .fileSent hon hempty file hfile n rfl hn (by omega)
      · rw [hlen, if_neg h0]
        exact .fileShort hon hempty file hfile n rfl hn (by omega)

/-- Every outcome of `handleWrite`, when a write takes no more than what is buffered. -/
theorem handleWrite_cases {r : SysRet} {c : TcpConnection β} (hwf : c.outputBuffer.Wf)
    (hr : c.channel.isWriting = true → c.outputBuffer.readable ≠ [] →
      ∀ n, r = .ok n → n ≤ c.outputBuffer.readable.length) :
    WriteOutcome r c (handleWrite r c) := by
  cases hon : c.channel.isWriting with
  | false =>
    rw [handleWrite.eq_def, Act.get_bind, if_neg (by simp [hon])]
    exact .idle hon
  | true =>
    by_cases hempty : c.outputBuffer.readable = []
    · exact handleWrite_file hwf hon hempty
    · exact handleWrite_buffered hwf hon hempty (hr hon hempty)

/-- **Every outcome of `handleWrite`**, when the kernel accepts no more than it is offered. -/
theorem handleWrite_outcome {r : SysRet} {c : TcpConnection β} (hwf : c.outputBuffer.Wf)
    (hlegal : ∀ e ∈ (handleWrite r c).trace, e.Legal) : WriteOutcome r c (handleWrite r c) := by
  refine handleWrite_cases hwf fun hon hne n hr => ?_
  have hpos : 0 < c.outputBuffer.readableBytes :=
    Nat.pos_of_ne_zero fun h => hne (hwf.readableBytes_eq_zero.1 h)
  have hmem : .write c.channel.fd c.outputBuffer.readable r ∈ (handleWrite r c).trace := by
    rw [handleWrite.eq_def, Act.get_bind, if_pos hon, if_pos hpos, Act.emit_bind]
    simp
  have := hlegal _ hmem
  rw [hr] at this
  exact this

/-- The same when the call returns: `retrieve` does not let a write pass that took more. -/
theorem handleWrite_returned {r : SysRet} {c : TcpConnection β} (hwf : c.outputBuffer.Wf)
    (hok : (handleWrite r c).val = .ok ()) : WriteOutcome r c (handleWrite r c) := by
  refine handleWrite_cases hwf fun hon hne n hr => ?_
  have hpos : 0 < c.outputBuffer.readableBytes :=
    Nat.pos_of_ne_zero fun h => hne (hwf.readableBytes_eq_zero.1 h)
  by_contra hgt
  rw [hwf.length_readable] at hgt
  have hfail : onOutputBuffer (·.retrieve n) c = ⟨.error .assertion, c, []⟩ := by
    rw [onOutputBuffer, Act.get_bind, Buffer.retrieve, if_neg hgt]
    rfl
  have hn : 0 < n := by omega
  subst hr
  rw [handleWrite.eq_def, Act.get_bind, if_pos hon, if_pos hpos, Act.emit_bind] at hok
  simp only [if_pos hn] at hok
  rw [Act.bind_error hfail] at hok
  cases hok

end TcpConnection

end Cannet.Net
