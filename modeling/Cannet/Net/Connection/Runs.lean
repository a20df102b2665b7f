import Cannet.Net.Connection.Lifecycle

/-!
# Runs of one connection

The calls made on a live connection by its loop's thread: sends, writable events, the half-close,
pausing and resuming the reads, attaching a file. A run is a `Foundations.Run` of them, with what
each call did; `accepted`, `delivered` and the counts below read it.
-/

namespace Cannet.Net

open Foundations

variable {β : Type}

/-- A call on a live connection by the loop's thread, with the kernel's answers to the system
calls it may make. -/
inductive Op (β : Type)
  | send (message : List β) (w f : SysRet)
  | handleWrite (r : SysRet)
  | shutdown
  | startRead
  | stopRead
  | setSendFile (file : SendFileUtil)
  deriving DecidableEq, Repr

namespace TcpConnection

def exec [Inhabited β] : Op β → Conn β Unit
  | .send message w f => send true w f message
  | .handleWrite r => handleWrite r
  | .shutdown => shutdown true
  | .startRead => startRead true
  | .stopRead => stopRead true
  | .setSendFile file => setSendFile file

end TcpConnection

/-- One call of a run. -/
abbrev ConnCall (β : Type) := Call (Op β) Abort (Effect β) (TcpConnection β)

/-- The kernel answered the call's system calls. -/
def Answered (call : ConnCall β) : Prop := ∀ e ∈ call.outcome.trace, e.Legal

instance : DecidablePred (Answered (β := β)) := fun call =>
  inferInstanceAs (Decidable (∀ e ∈ call.outcome.trace, e.Legal))

/-- A connection right after `connectEstablished`: nothing to send. -/
structure Established (c : TcpConnection β) : Prop where
  state_eq : c.state = .kConnected
  wf : c.outputBuffer.Wf
  empty : c.outputBuffer.readable = []
  notWriting : c.channel.isWriting = false
  noFile : c.sendFile = none

/-- A connection right after its constructor or `connectReset`. -/
structure Fresh (c : TcpConnection β) : Prop where
  state_eq : c.state = .kConnecting
  wf : c.outputBuffer.Wf
  empty : c.outputBuffer.readable = []
  notWriting : c.channel.isWriting = false
  noFile : c.sendFile = none

theorem fresh_init [Inhabited β] (sockFd : ℤ) :
    Fresh (TcpConnection.init sockFd : TcpConnection β) where
  state_eq := rfl
  wf := Buffer.init_wf _
  empty := Buffer.readable_init _
  notWriting := Channel.isWriting_init _
  noFile := rfl

/-- **`connectEstablished` on a fresh connection** returns and leaves it established. -/
theorem Fresh.connectEstablished {c : TcpConnection β} (h : Fresh c)
    (hcb : c.connectionCallback.isSome) :
    (TcpConnection.connectEstablished c).val = .ok () ∧
      Established (TcpConnection.connectEstablished c).state := by
  have ho := TcpConnection.connectEstablished_outcome c
  generalize TcpConnection.connectEstablished c = o at ho ⊢
  cases ho with
  | refused hs => exact absurd h.state_eq hs
  | unset hs hno =>
    rw [hno] at hcb
    cases hcb
  | opened hs _ =>
    have hoff := Channel.isWriting_enable_read c.channel
    exact ⟨rfl, ⟨rfl, h.wf, h.empty, hoff.trans h.notWriting, h.noFile⟩⟩

/-- A new connection with its callbacks set, as `Epoll::createConnection` opens it. -/
def opened [Inhabited β] (sockFd : ℤ) : TcpConnection β :=
  (TcpConnection.connectEstablished
    { TcpConnection.init sockFd with
      connectionCallback := some 0
      messageCallback := some 1
      writeCompleteCallback := some 2
      closeCallback := true }).state

theorem established_opened [Inhabited β] (sockFd : ℤ) :
    Established (opened sockFd : TcpConnection β) := by
  have h := fresh_init (β := β) sockFd
  refine (Fresh.connectEstablished ?_ rfl).2
  exact ⟨h.state_eq, h.wf, h.empty, h.notWriting, h.noFile⟩

/-! ## Reading a trace -/

namespace Effect

/-- The bytes a `write` handed to the kernel. -/
def acceptedBytes : Effect β → List β
  | .write _ data (.ok n) => data.take n
  | _ => []

/-- A `write` that failed with `EPIPE` or `ECONNRESET`. -/
def isFaultWrite : Effect β → Bool
  | .write _ _ (.err e) => e.isFault
  | _ => false

def isShutdownWrite : Effect β → Bool
  | .shutdownWrite _ => true
  | _ => false

/-- A queued `writeCompleteCallback_`. -/
def isCompletion : Effect β → Bool
  | .queueInLoop .writeCompleteCallback => true
  | _ => false

end Effect

/-- The bytes the kernel has accepted from `write`. -/
def accepted (es : List (Effect β)) : List β := es.flatMap Effect.acceptedBytes

/-- Whether a direct write found the connection dead. -/
def faulted (es : List (Effect β)) : Bool := es.any Effect.isFaultWrite

/-- The half-closes issued. -/
def shutdowns (es : List (Effect β)) : ℕ := es.countP Effect.isShutdownWrite

/-- The write-complete callbacks queued. -/
def completions (es : List (Effect β)) : ℕ := es.countP Effect.isCompletion

/-- The messages sent, in call order, without those whose direct write found the connection
dead. -/
def delivered (calls : List (ConnCall β)) : List β :=
  calls.flatMap fun call =>
    match call.input with
    | .send message _ _ => if faulted call.outcome.trace then [] else message
    | _ => []

@[simp] theorem accepted_nil : accepted ([] : List (Effect β)) = [] := rfl

@[simp] theorem accepted_cons (e : Effect β) (es : List (Effect β)) :
    accepted (e :: es) = e.acceptedBytes ++ accepted es := List.flatMap_cons

@[simp] theorem accepted_append (es es' : List (Effect β)) :
    accepted (es ++ es') = accepted es ++ accepted es' := List.flatMap_append

@[simp] theorem faulted_nil : faulted ([] : List (Effect β)) = false := rfl

@[simp] theorem faulted_cons (e : Effect β) (es : List (Effect β)) :
    faulted (e :: es) = (e.isFaultWrite || faulted es) := List.any_cons

@[simp] theorem faulted_append (es es' : List (Effect β)) :
    faulted (es ++ es') = (faulted es || faulted es') := List.any_append

@[simp] theorem shutdowns_nil : shutdowns ([] : List (Effect β)) = 0 := rfl

@[simp] theorem shutdowns_cons (e : Effect β) (es : List (Effect β)) :
    shutdowns (e :: es) = shutdowns es + if e.isShutdownWrite then 1 else 0 := List.countP_cons

@[simp] theorem shutdowns_append (es es' : List (Effect β)) :
    shutdowns (es ++ es') = shutdowns es + shutdowns es' := List.countP_append

@[simp] theorem completions_nil : completions ([] : List (Effect β)) = 0 := rfl

@[simp] theorem completions_cons (e : Effect β) (es : List (Effect β)) :
    completions (e :: es) = completions es + if e.isCompletion then 1 else 0 := List.countP_cons

@[simp] theorem completions_append (es es' : List (Effect β)) :
    completions (es ++ es') = completions es + completions es' := List.countP_append

@[simp] theorem delivered_nil : delivered ([] : List (ConnCall β)) = [] := rfl

@[simp] theorem delivered_append (l l' : List (ConnCall β)) :
    delivered (l ++ l') = delivered l ++ delivered l' := List.flatMap_append

/-! ## Calls that show in no count -/

section Quiet

variable (ch : Channel) (c : TcpConnection β)

open TcpConnection

@[simp] theorem accepted_writingOnCalls : accepted (ch.writingOnCalls : List (Effect β)) = [] := by
  unfold Channel.writingOnCalls
  split <;> rfl

@[simp] theorem faulted_writingOnCalls :
    faulted (ch.writingOnCalls : List (Effect β)) = false := by
  unfold Channel.writingOnCalls
  split <;> rfl

@[simp] theorem shutdowns_writingOnCalls :
    shutdowns (ch.writingOnCalls : List (Effect β)) = 0 := by
  unfold Channel.writingOnCalls
  split <;> rfl

@[simp] theorem completions_writingOnCalls :
    completions (ch.writingOnCalls : List (Effect β)) = 0 := by
  unfold Channel.writingOnCalls
  split <;> rfl

@[simp] theorem accepted_writingOffCalls :
    accepted (ch.writingOffCalls : List (Effect β)) = [] := rfl

@[simp] theorem shutdowns_writingOffCalls :
    shutdowns (ch.writingOffCalls : List (Effect β)) = 0 := rfl

@[simp] theorem completions_writingOffCalls :
    completions (ch.writingOffCalls : List (Effect β)) = 0 := rfl

@[simp] theorem accepted_completion : accepted c.completion = [] := by
  unfold completion
  split <;> rfl

@[simp] theorem faulted_completion : faulted c.completion = false := by
  unfold completion
  split <;> rfl

@[simp] theorem shutdowns_completion : shutdowns c.completion = 0 := by
  unfold completion
  split <;> rfl

@[simp] theorem completions_completion :
    completions c.completion = if c.writeCompleteCallback.isSome then 1 else 0 := by
  unfold completion
  split <;> rfl

@[simp] theorem accepted_sentCalls : accepted c.sentCalls = [] := by
  unfold sentCalls
  split <;> simp [Effect.acceptedBytes]

@[simp] theorem completions_sentCalls :
    completions c.sentCalls = if c.writeCompleteCallback.isSome then 1 else 0 := by
  unfold sentCalls
  split <;> simp [Effect.isCompletion]

@[simp] theorem shutdowns_sentCalls :
    shutdowns c.sentCalls = if c.state = .kDisconnecting then 1 else 0 := by
  unfold sentCalls
  split <;> simp [Effect.isShutdownWrite]

@[simp] theorem accepted_halfClose : accepted c.halfClose = [] := by
  unfold halfClose
  split <;> rfl

@[simp] theorem completions_halfClose : completions c.halfClose = 0 := by
  unfold halfClose
  split <;> rfl

@[simp] theorem shutdowns_halfClose :
    shutdowns c.halfClose = if c.channel.isWriting then 0 else 1 := by
  unfold halfClose
  split <;> rfl

end Quiet

/-! ## The direct write in the counts -/

namespace TcpConnection.Direct

variable {w : SysRet} {data : List β} {c : TcpConnection β} {d : Written} {es : List (Effect β)}

theorem accepted_eq (hd : Direct w data c d es) : accepted es = data.take d.nwrote := by
  cases hd with
  | skipped _ => simp
  | wrote n hw _ _ =>
    subst hw
    rw [accepted_cons, Effect.acceptedBytes]
    split <;> simp
  | failed e hw _ _ =>
    subst hw
    simp [Effect.acceptedBytes]

theorem faulted_eq (hd : Direct w data c d es) : faulted es = d.faultError := by
  cases hd with
  | skipped _ => rfl
  | wrote n hw _ _ =>
    subst hw
    have hok : (Effect.write c.channel.fd data (.ok n)).isFaultWrite = false := rfl
    split <;> simp [hok]
  | failed e hw _ _ =>
    subst hw
    simp [Effect.isFaultWrite]

theorem shutdowns_eq (hd : Direct w data c d es) : shutdowns es = 0 := by
  cases hd with
  | skipped _ => rfl
  | wrote n _ _ _ =>
    rw [shutdowns_cons]
    split <;> simp [Effect.isShutdownWrite]
  | failed e _ _ _ => rfl

/-- A direct write that leaves a rest queues no completion. -/
theorem completions_eq (hd : Direct w data c d es) (hn : d.nwrote < data.length) :
    completions es = 0 := by
  cases hd with
  | skipped _ => rfl
  | wrote n _ _ _ =>
    rw [completions_cons, if_neg (fun h => absurd h.1 (Nat.not_le_of_lt hn))]
    simp [Effect.isCompletion]
  | failed e _ _ _ => rfl

/-- A direct write reports completion with nothing left to send only. -/
theorem completions_pos (hd : Direct w data c d es) (h : 0 < completions es) :
    c.outputBuffer.readable = [] ∧ c.fileLeft = 0 := by
  cases hd with
  | skipped _ => simp at h
  | wrote n _ _ hempty =>
    refine ⟨hempty, ?_⟩
    by_contra hleft
    rw [if_neg (fun h' => hleft h'.2)] at h
    simp [Effect.isCompletion] at h
  | failed e _ _ _ => simp [Effect.isCompletion] at h

/-- A direct write that leaves nothing to buffer has put the message on the wire, unless it found
the connection dead. -/
theorem stream_done (hd : Direct w data c d es)
    (hdone : d.faultError = true ∨ data.length ≤ d.nwrote) :
    accepted es ++ c.outputBuffer.readable =
      c.outputBuffer.readable ++ if faulted es then [] else data := by
  rw [hd.accepted_eq, hd.faulted_eq]
  cases hd with
  | skipped _ =>
    have hnil : data = [] := List.length_eq_zero_iff.1 (by simpa using hdone)
    simp [hnil]
  | wrote n _ _ hempty =>
    have hn : data.length ≤ n := by simpa using hdone
    simp [hempty, List.take_of_length_le hn]
  | failed e _ _ _ =>
    rcases hdone with hfault | hlen
    · simp [show e.isFault = true from hfault]
    · have hnil : data = [] := List.length_eq_zero_iff.1 (by simpa using hlen)
      simp [hnil]

/-- What a direct write took and what is buffered behind the old bytes make up the message. -/
theorem stream_rest (hd : Direct w data c d es) (hfault : d.faultError = false) :
    accepted es ++ (c.outputBuffer.readable ++ data.drop d.nwrote) =
      c.outputBuffer.readable ++ if faulted es then [] else data := by
  rw [hd.accepted_eq, hd.faulted_eq, hfault]
  cases hd with
  | skipped _ => simp
  | wrote n _ _ hempty => simp [hempty]
  | failed e _ _ _ => simp

end TcpConnection.Direct

/-! ## What every call does to the outgoing bytes -/

open TcpConnection

/-- The file branch of `sendInLoop` leaves the message alone. -/
structure FileQuiet (c : TcpConnection β) (o : Outcome Abort (Effect β) (TcpConnection β) Unit) :
    Prop where
  outputBuffer : o.state.outputBuffer = c.outputBuffer
  state : o.state.state = c.state
  accepted : accepted o.trace = []
  faulted : faulted o.trace = false
  shutdowns : shutdowns o.trace = 0

theorem TcpConnection.FileOutcome.quiet {f : SysRet} {file : SendFileUtil} {c : TcpConnection β}
    {o : Outcome Abort (Effect β) (TcpConnection β) Unit} (ho : FileOutcome f file c o) :
    FileQuiet c o := by
  cases ho with
  | failed => exact ⟨rfl, rfl, rfl, rfl, rfl⟩
  | blocked | short =>
    refine ⟨rfl, rfl, ?_, ?_, ?_⟩ <;>
      simp [sendfileCall, Effect.acceptedBytes, Effect.isFaultWrite, Effect.isShutdownWrite]
  | sent => exact ⟨rfl, rfl, rfl, rfl, rfl⟩
  | released => exact ⟨rfl, rfl, rfl, rfl, rfl⟩

/-- The bytes a call adds to the stream. -/
def added (op : Op β) (es : List (Effect β)) : List β :=
  match op with
  | .send message _ _ => if faulted es then [] else message
  | _ => []

/-- **Nothing is lost, repeated or reordered**: what a call got accepted and what it leaves in the
buffer are the bytes buffered before and the message it added. -/
structure Streams (c : TcpConnection β) (op : Op β)
    (o : Outcome Abort (Effect β) (TcpConnection β) Unit) : Prop where
  wf : o.state.outputBuffer.Wf
  live : o.state.state = .kConnected ∨ o.state.state = .kDisconnecting
  stream : accepted o.trace ++ o.state.outputBuffer.readable =
    c.outputBuffer.readable ++ added op o.trace

section Streams

variable {c : TcpConnection β} (hwf : c.outputBuffer.Wf)
  (hlive : c.state = .kConnected ∨ c.state = .kDisconnecting)

include hwf hlive

theorem send_streams [Inhabited β] (message : List β) (w f : SysRet) :
    Streams c (.send message w f) (send true w f message c) := by
  rw [send_live w f message hlive]
  have ho := sendInLoop_outcome w f message hwf
  generalize sendInLoop w f message message.length c = o at ho
  cases ho with
  | disconnected h => simp [h] at hlive
  | buffered d es hd hfault hrest b hb hread =>
    refine ⟨hb, hlive, ?_⟩
    have := hd.stream_rest hfault
    simpa [added, hread, Effect.acceptedBytes, Effect.isFaultWrite] using this
  | finished d es hd hdone _ =>
    refine ⟨hwf, hlive, ?_⟩
    have := hd.stream_done hdone
    simpa [added, Effect.acceptedBytes, Effect.isFaultWrite] using this
  | file d es hd hdone file _ o ho =>
    have hq := ho.quiet
    refine ⟨?_, ?_, ?_⟩
    · rw [Outcome.state_after, hq.outputBuffer]
      exact hwf
    · rw [Outcome.state_after, hq.state]
      exact hlive
    · have := hd.stream_done hdone
      simpa [added, hq.outputBuffer, hq.accepted, hq.faulted, Effect.acceptedBytes,
        Effect.isFaultWrite] using this

theorem handleWrite_streams {r : SysRet} (hlegal : ∀ e ∈ (handleWrite r c).trace, e.Legal) :
    Streams c (.handleWrite r) (handleWrite r c) := by
  have ho := handleWrite_outcome hwf hlegal
  generalize handleWrite r c = o at ho
  cases ho with
  | idle | nothing => exact ⟨hwf, hlive, by simp [added]⟩
  | failed _ _ hr =>
    refine ⟨hwf, hlive, ?_⟩
    cases r with
    | ok n =>
      cases hr
      simp [added, Effect.acceptedBytes]
    | err e => simp [added, Effect.acceptedBytes]
  | short _ n hr _ _ b hb hread =>
    subst hr
    exact ⟨hb, hlive, by simp [added, hread, Effect.acceptedBytes]⟩
  | drained _ hr _ b hb hread =>
    subst hr
    exact ⟨hb, hlive, by simp [added, hread, Effect.acceptedBytes]⟩
  | fileFailed | fileShort =>
    exact ⟨hwf, hlive, by simp [added, sendfileCall, Effect.acceptedBytes]⟩
  | fileSent => exact ⟨hwf, hlive, by simp [added, sendfileCall, Effect.acceptedBytes]⟩

omit hlive in
theorem shutdown_streams (hlive : c.state = .kConnected ∨ c.state = .kDisconnecting) :
    Streams c .shutdown (shutdown true c) := by
  rw [shutdown, Act.get_bind, Act.ite_apply]
  split
  · rw [setState, Act.modify_bind, runInLoop, if_pos rfl, shutdownInLoop_apply]
    refine ⟨hwf, .inr rfl, ?_⟩
    change accepted c.halfClose ++ _ = _
    simp [added]
  · exact ⟨hwf, hlive, by simp [added]⟩

theorem reads_streams {op : Op β} {o : Outcome Abort (Effect β) (TcpConnection β) Unit}
    (ho : ReadsOutcome c o) (hadd : ∀ es, added op es = []) : Streams c op o := by
  cases ho with
  | same => exact ⟨hwf, hlive, by simp [hadd]⟩
  | toggled => exact ⟨hwf, hlive, by simp [hadd, Effect.acceptedBytes]⟩

/-- **Every call on a live connection** keeps it live and its bytes in order. -/
theorem exec_streams [Inhabited β] {op : Op β} (hanswered : Answered (Call.make exec op c)) :
    Streams c op (exec op c) := by
  cases op with
  | send message w f => exact send_streams hwf hlive message w f
  | handleWrite r => exact handleWrite_streams hwf hlive hanswered
  | shutdown => exact shutdown_streams hwf hlive
  | startRead => exact reads_streams hwf hlive (startRead_outcome c) fun _ => rfl
  | stopRead => exact reads_streams hwf hlive (stopRead_outcome c) fun _ => rfl
  | setSendFile file => exact ⟨hwf, hlive, (List.append_nil _).symm⟩

end Streams

theorem delivered_make [Inhabited β] (op : Op β) (c : TcpConnection β) :
    delivered [Call.make exec op c] = added op (exec op c).trace := by
  rw [delivered, List.flatMap_singleton]
  cases op <;> rfl

/-- The stream equality over the calls so far. -/
theorem Streams.append [Inhabited β] {c : TcpConnection β} {calls : List (ConnCall β)} {op : Op β}
    (h : Streams c op (exec op c))
    (hstream : accepted (traceOf calls) ++ c.outputBuffer.readable = delivered calls) :
    accepted (traceOf (calls ++ [Call.make exec op c])) ++
        (exec op c).state.outputBuffer.readable = delivered (calls ++ [Call.make exec op c]) := by
  rw [traceOf_append, traceOf_singleton, accepted_append, List.append_assoc, Call.make_outcome,
    h.stream, ← List.append_assoc, hstream, delivered_append, delivered_make]

end Cannet.Net
