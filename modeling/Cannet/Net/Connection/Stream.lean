import Cannet.Net.Connection.Runs

/-!
# The outgoing stream of a connection without files

The bytes the kernel has accepted, followed by those still buffered, are the messages sent, in
order. What one call does to that is `Flushes`; the invariant of a run is `Streaming`: write
interest is on exactly while something is buffered, and the half-close has been issued exactly
when the connection is disconnecting with nothing buffered.
-/

namespace Cannet.Net

open Foundations TcpConnection

variable {β : Type}

/-- The call made a successful write of its own: any count in `sendInLoop`, a positive one in
`handleWrite`. -/
def WroteItself (op : Op β) (es : List (Effect β)) : Prop :=
  match op with
  | .send .. => ∃ fd data n, Effect.write fd data (.ok n) ∈ es
  | .handleWrite _ => ∃ fd data n, Effect.write fd data (.ok n) ∈ es ∧ 0 < n
  | _ => False

/-- What a call on a connection without a file does to its outgoing stream. -/
structure Flushes (c : TcpConnection β) (op : Op β)
    (o : Outcome Abort (Effect β) (TcpConnection β) Unit) : Prop extends Streams c op o where
  returns : o.val = .ok ()
  noFile : o.state.sendFile = none
  interest : o.state.channel.isWriting = true ↔ o.state.outputBuffer.readable ≠ []
  closed : (if c.state = .kDisconnecting ∧ c.outputBuffer.readable = [] then 1 else 0) +
      shutdowns o.trace =
    if o.state.state = .kDisconnecting ∧ o.state.outputBuffer.readable = [] then 1 else 0
  /-- At a half-close every write of the call is done and nothing is buffered. -/
  flushed : ∀ pre fd post, o.trace = pre ++ .shutdownWrite fd :: post →
    accepted pre = accepted o.trace ∧ o.state.outputBuffer.readable = []
  completes : completions o.trace = 1 ↔ c.writeCompleteCallback.isSome = true ∧
    WroteItself op o.trace ∧ o.state.outputBuffer.readable = []
  once : completions o.trace ≤ 1

/-- No half-close among the effects, no position of one. -/
theorem flushed_of_shutdowns_eq_zero {es : List (Effect β)} (h : shutdowns es = 0) {P : Prop}
    {pre post : List (Effect β)} {fd : ℤ} (heq : es = pre ++ .shutdownWrite fd :: post) : P := by
  rw [heq] at h
  simp [Effect.isShutdownWrite] at h

/-- The only half-close among the effects is the last one. -/
theorem split_at_last_shutdown {es pre post : List (Effect β)} {fd fd' : ℤ}
    (h : shutdowns es = 0)
    (heq : es ++ [.shutdownWrite fd] = pre ++ .shutdownWrite fd' :: post) : pre = es := by
  have hnone : ∀ e ∈ es, ¬e.isShutdownWrite = true := List.countP_eq_zero.1 h
  exact (split_unique heq hnone (fun _ he => absurd he List.not_mem_nil) rfl).1

section Calls

variable {c : TcpConnection β} (hwf : c.outputBuffer.Wf) (hfile : c.sendFile = none)
  (hlive : c.state = .kConnected ∨ c.state = .kDisconnecting)
  (hint : c.channel.isWriting = true ↔ c.outputBuffer.readable ≠ [])

include hwf hfile hlive hint

omit hwf hlive in
/-- A call that changes neither the connection nor any count. -/
theorem flushes_idle {op : Op β} {es : List (Effect β)} {o : Outcome Abort (Effect β) _ Unit}
    (hs : Streams c op o) (ho : o = ⟨.ok (), c, es⟩) (hshut : shutdowns es = 0)
    (hcomp : completions es = 0) (hown : ¬WroteItself op es) : Flushes c op o := by
  subst ho
  exact {
    toStreams := hs
    returns := rfl
    noFile := hfile
    interest := hint
    closed := by simp [hshut]
    flushed := fun _ _ _ heq => flushed_of_shutdowns_eq_zero hshut heq
    completes := by simp [hcomp, hown]
    once := by simp [hcomp] }

theorem handleWrite_flushes {r : SysRet} (hlegal : ∀ e ∈ (handleWrite r c).trace, e.Legal) :
    Flushes c (.handleWrite r) (handleWrite r c) := by
  have hs := handleWrite_streams hwf hlive hlegal
  have ho := handleWrite_outcome hwf hlegal
  generalize handleWrite r c = o at ho hs
  cases ho with
  | idle hoff => exact flushes_idle hfile hint hs rfl rfl rfl (by simp [WroteItself])
  | nothing hon hempty _ => exact absurd hempty (hint.1 hon)
  | failed hon hne hr =>
    refine flushes_idle hfile hint hs rfl ?_ ?_ ?_
    · cases r <;> rfl
    · cases r <;> rfl
    · cases r with
      | ok n =>
        cases hr
        simp [WroteItself]
      | err e => simp [WroteItself]
  | short hon n hr hpos hn b hb hread =>
    have hne : b.readable ≠ [] := by
      rw [hread, ne_eq, List.drop_eq_nil_iff]
      omega
    exact {
      toStreams := hs
      returns := rfl
      noFile := hfile
      interest := by simp [hon, hne]
      closed := by simp [hint.1 hon, hne, Effect.isShutdownWrite]
      flushed := fun _ _ _ heq => flushed_of_shutdowns_eq_zero (by rfl) heq
      completes := by simp [hne, Effect.isCompletion]
      once := by simp [Effect.isCompletion] }
  | drained hon hr hne b hb hread =>
    subst hr
    have hown : WroteItself (.handleWrite (.ok c.outputBuffer.readable.length))
        (.write c.channel.fd c.outputBuffer.readable (.ok c.outputBuffer.readable.length) ::
          (c.channel.writingOffCalls ++ c.sentCalls)) :=
      ⟨_, _, _, List.mem_cons_self, List.length_pos_of_ne_nil hne⟩
    exact {
      toStreams := hs
      returns := rfl
      noFile := hfile
      interest := by simp [hread]
      closed := by simp [hne, hread, Effect.isShutdownWrite]
      flushed := by
        intro pre fd post heq
        refine ⟨?_, hread⟩
        simp only [sentCalls] at heq
        split at heq
        · rw [← List.append_assoc, ← List.cons_append] at heq
          rw [split_at_last_shutdown (by simp [Effect.isShutdownWrite]) heq]
          simp
        · exact flushed_of_shutdowns_eq_zero (by simp [Effect.isShutdownWrite]) heq
      completes := by simp [hread, hown, Effect.isCompletion, Option.isSome_iff_ne_none]
      once := by
        simp [Effect.isCompletion]
        split <;> omega }
  | fileFailed _ _ file hf _ => simp [hfile] at hf
  | fileShort _ _ file hf _ _ _ _ => simp [hfile] at hf
  | fileSent _ _ file hf _ _ _ _ => simp [hfile] at hf

omit hlive in
/-- A message sent while connected. -/
theorem send_flushes [Inhabited β] (hconn : c.state = .kConnected) (message : List β)
    (w f : SysRet) : Flushes c (.send message w f) (send true w f message c) := by
  have hlive : c.state = .kConnected ∨ c.state = .kDisconnecting := .inl hconn
  have hopen : c.state ≠ .kDisconnecting := by simp [hconn]
  have hs := send_streams hwf hlive message w f
  rw [send_live w f message hlive] at hs ⊢
  have ho := sendInLoop_outcome w f message hwf
  generalize sendInLoop w f message message.length c = o at ho hs
  cases ho with
  | disconnected h => simp [h] at hlive
  | buffered d es hd hfault hrest b hb hread =>
    have hne : b.readable ≠ [] := by
      rw [hread, ne_eq, List.append_eq_nil_iff, not_and_or, List.drop_eq_nil_iff]
      exact .inr (by omega)
    have hshut : shutdowns (.sendInLoop message message.length :: es ++
        c.channel.writingOnCalls) = 0 := by
      simp [hd.shutdowns_eq, Effect.isShutdownWrite]
    exact {
      toStreams := hs
      returns := rfl
      noFile := hfile
      interest := by simp [hne]
      closed := by simp [hd.shutdowns_eq, hopen, Effect.isShutdownWrite]
      flushed := fun _ _ _ heq => flushed_of_shutdowns_eq_zero hshut heq
      completes := by simp [hd.completions_eq hrest, hne, Effect.isCompletion]
      once := by simp [hd.completions_eq hrest, Effect.isCompletion] }
  | finished d es hd hdone _ =>
    cases hd with
    | skipped => exact flushes_idle hfile hint hs rfl rfl rfl (by simp [WroteItself])
    | wrote n hw hoff hempty =>
      subst hw
      have hn : message.length ≤ n := by simpa using hdone
      have hleft : c.fileLeft = 0 := by rw [fileLeft, hfile]
      have hown : WroteItself (.send message (.ok n) f) (.sendInLoop message message.length ::
          .write c.channel.fd message (.ok n) :: c.completion) :=
        ⟨_, _, _, List.mem_cons_of_mem _ List.mem_cons_self⟩
      rw [if_pos ⟨hn, hleft⟩] at hs ⊢
      exact {
        toStreams := hs
        returns := rfl
        noFile := hfile
        interest := hint
        closed := by simp [Effect.isShutdownWrite]
        flushed := fun _ _ _ heq =>
          flushed_of_shutdowns_eq_zero (by simp [Effect.isShutdownWrite]) heq
        completes := by
          simp [Effect.isCompletion, hown, hempty, Option.isSome_iff_ne_none]
        once := by
          simp only [completions_cons, completions_completion, Effect.isCompletion]
          split <;> simp }
    | failed e hw =>
      subst hw
      exact flushes_idle hfile hint hs rfl (by simp [Effect.isShutdownWrite])
        (by simp [Effect.isCompletion]) (by simp [WroteItself])
  | file d es hd hdone file hf _ _ => simp [hfile] at hf

theorem shutdown_flushes : Flushes c .shutdown (shutdown true c) := by
  have hstreams := shutdown_streams hwf hlive
  rw [shutdown, Act.get_bind, Act.ite_apply] at hstreams ⊢
  rcases hlive with hs | hs
  · rw [if_pos hs, setState, Act.modify_bind, runInLoop, if_pos rfl, shutdownInLoop_apply]
      at hstreams ⊢
    have hclosed : shutdowns c.halfClose = if c.outputBuffer.readable = [] then 1 else 0 := by
      rw [shutdowns_halfClose]
      by_cases hr : c.outputBuffer.readable = []
      · have hoff : c.channel.isWriting = false := by simpa [hr] using hint
        simp [hoff, hr]
      · simp [hint.2 hr, hr]
    exact {
      toStreams := hstreams
      returns := rfl
      noFile := hfile
      interest := hint
      closed := by
        change _ + shutdowns c.halfClose = _
        simp [hclosed, hs]
      flushed := by
        intro pre fd post heq
        change c.halfClose = _ at heq
        rw [halfClose] at heq
        split at heq
        · simp at heq
        · rename_i hoff
          have hpre : pre = [] := split_at_last_shutdown rfl heq
          rw [hpre]
          exact ⟨by simp, by_contra fun hr => hoff (hint.2 hr)⟩
      completes := by
        change completions c.halfClose = 1 ↔ _
        simp [WroteItself]
      once := by
        change completions c.halfClose ≤ 1
        simp }
  · rw [if_neg (by simp [hs])] at hstreams ⊢
    exact flushes_idle hfile hint hstreams rfl rfl rfl (by simp [WroteItself])

/-- Pausing and resuming the reads. -/
theorem reads_flushes {op : Op β} {o : Outcome Abort (Effect β) (TcpConnection β) Unit}
    (ho : ReadsOutcome c o) (hadd : ∀ es, added op es = []) (hown : ∀ es, ¬WroteItself op es) :
    Flushes c op o := by
  have hs := reads_streams hwf hlive ho hadd
  cases ho with
  | same => exact flushes_idle hfile hint hs rfl rfl rfl (hown _)
  | toggled ch reading op fd events hch =>
    exact {
      toStreams := hs
      returns := rfl
      noFile := hfile
      interest := by rw [← hint, ← hch]
      closed := by simp [Effect.isShutdownWrite]
      flushed := fun _ _ _ heq => flushed_of_shutdowns_eq_zero rfl heq
      completes := by simp [hown, Effect.isCompletion]
      once := by simp [Effect.isCompletion] }

end Calls

/-! ## Runs -/

/-- The calls on a connection without files: the kernel answers, sends are issued while
connected, and no file is attached. -/
def WithoutFiles (_ : List (ConnCall β)) (call : ConnCall β) : Prop :=
  Answered call ∧
    match call.input with
    | .send .. => call.before.state = .kConnected
    | .setSendFile _ => False
    | _ => True

instance (calls : List (ConnCall β)) (call : ConnCall β) : Decidable (WithoutFiles calls call) :=
  match call with
  | ⟨.send .., _, _⟩ => inferInstanceAs (Decidable (Answered _ ∧ _ = _))
  | ⟨.setSendFile _, _, _⟩ => inferInstanceAs (Decidable (Answered _ ∧ False))
  | ⟨.handleWrite _, _, _⟩ | ⟨.shutdown, _, _⟩ | ⟨.startRead, _, _⟩ | ⟨.stopRead, _, _⟩ =>
    inferInstanceAs (Decidable (Answered _ ∧ True))

/-- The invariant of a run without files. -/
structure Streaming (calls : List (ConnCall β)) (c : TcpConnection β) : Prop where
  wf : c.outputBuffer.Wf
  noFile : c.sendFile = none
  live : c.state = .kConnected ∨ c.state = .kDisconnecting
  interest : c.channel.isWriting = true ↔ c.outputBuffer.readable ≠ []
  stream : accepted (traceOf calls) ++ c.outputBuffer.readable = delivered calls
  closed : shutdowns (traceOf calls) =
    if c.state = .kDisconnecting ∧ c.outputBuffer.readable = [] then 1 else 0

theorem Established.streaming {c : TcpConnection β} (h : Established c) : Streaming [] c where
  wf := h.wf
  noFile := h.noFile
  live := .inl h.state_eq
  interest := by simp [h.notWriting, h.empty]
  stream := by simp [h.empty]
  closed := by simp [h.state_eq]

namespace Streaming

variable [Inhabited β] {c : TcpConnection β} {calls : List (ConnCall β)}

/-- What the next call of a run does to the stream. -/
theorem flushes (h : Streaming calls c) {op : Op β}
    (hg : WithoutFiles calls (Call.make exec op c)) : Flushes c op (exec op c) := by
  obtain ⟨hanswered, hop⟩ := hg
  cases op with
  | send message w f => exact send_flushes h.wf h.noFile h.interest hop message w f
  | handleWrite r => exact handleWrite_flushes h.wf h.noFile h.live h.interest hanswered
  | shutdown => exact shutdown_flushes h.wf h.noFile h.live h.interest
  | startRead =>
    exact reads_flushes h.wf h.noFile h.live h.interest (startRead_outcome c) (fun _ => rfl)
      fun _ => id
  | stopRead =>
    exact reads_flushes h.wf h.noFile h.live h.interest (stopRead_outcome c) (fun _ => rfl)
      fun _ => id
  | setSendFile file => exact hop.elim

/-- **Each call of a run keeps the invariant.** -/
theorem step (h : Streaming calls c) {op : Op β}
    (hg : WithoutFiles calls (Call.make exec op c)) :
    Streaming (calls ++ [Call.make exec op c]) (exec op c).state := by
  have hf := h.flushes hg
  exact {
    wf := hf.wf
    noFile := hf.noFile
    live := hf.live
    interest := hf.interest
    stream := hf.toStreams.append h.stream
    closed := by
      rw [traceOf_append, traceOf_singleton, shutdowns_append, h.closed]
      exact hf.closed }

end Streaming

variable [Inhabited β] {c₀ c : TcpConnection β} {calls : List (ConnCall β)}

theorem streaming_of_run (h₀ : Established c₀) (h : Run exec WithoutFiles c₀ calls c) :
    Streaming calls c :=
  h.invariant h₀.streaming fun _ _ _ hs hg _ => hs.step hg

/-- **The outgoing stream is the messages in order.** In every run the bytes accepted so far,
followed by the bytes still buffered, are the messages sent, without those whose direct write
found the connection dead; and the next call, which returns, queues the write-complete callback
exactly when its own successful write left nothing pending. -/
theorem outgoing_stream_in_order (h₀ : Established c₀) (h : Run exec WithoutFiles c₀ calls c) :
    accepted (traceOf calls) ++ c.outputBuffer.readable = delivered calls ∧
      ∀ op, WithoutFiles calls (Call.make exec op c) →
        (exec op c).val = .ok () ∧
        completions (exec op c).trace ≤ 1 ∧
        (completions (exec op c).trace = 1 ↔
          c.writeCompleteCallback.isSome = true ∧ WroteItself op (exec op c).trace ∧
            (exec op c).state.outputBuffer.readable = []) := by
  have hs := streaming_of_run h₀ h
  refine ⟨hs.stream, fun op hg => ?_⟩
  have hf := hs.flushes hg
  exact ⟨hf.returns, hf.once, hf.completes⟩

/-- A message whose direct write is cut short, and the writable event that sends its rest. -/
theorem outgoing_stream_of_short_write :
    let is : List (Op ℕ) := [.send [1, 2, 3] (.ok 2) (.ok 0)]
    let calls := replay exec is (opened 5)
    let c := replayState exec is (opened 5)
    accepted (traceOf calls) ++ c.outputBuffer.readable = delivered calls ∧
      (exec (.handleWrite (.ok 1)) c).val = .ok () ∧
      (completions (exec (.handleWrite (.ok 1)) c).trace = 1 ↔
        c.writeCompleteCallback.isSome = true ∧
          WroteItself (.handleWrite (.ok 1)) (exec (.handleWrite (.ok 1)) c).trace ∧
          (exec (.handleWrite (.ok 1)) c).state.outputBuffer.readable = []) := by
  have h := outgoing_stream_in_order (established_opened (β := ℕ) 5)
    (run_replay [.send [1, 2, 3] (.ok 2) (.ok 0)] (by decide +kernel))
  obtain ⟨hval, -, hcomp⟩ := h.2 (.handleWrite (.ok 1)) (by decide +kernel)
  exact ⟨h.1, hval, hcomp⟩

/-- **Shutdown flushes first.** In every run the half-close is issued at most once, and it has
been issued when the connection is disconnecting with nothing buffered. The next call returns,
and at a half-close it issues the kernel has accepted every byte of every message and nothing is
buffered. -/
theorem shutdown_flushes_first (h₀ : Established c₀) (h : Run exec WithoutFiles c₀ calls c) :
    shutdowns (traceOf calls) ≤ 1 ∧
      (c.state = .kDisconnecting → c.outputBuffer.readable = [] →
        shutdowns (traceOf calls) = 1) ∧
      ∀ op, WithoutFiles calls (Call.make exec op c) →
        (exec op c).val = .ok () ∧
        ∀ pre fd post, (exec op c).trace = pre ++ .shutdownWrite fd :: post →
          accepted (traceOf calls ++ pre) = delivered (calls ++ [Call.make exec op c]) ∧
            (exec op c).state.outputBuffer.readable = [] := by
  have hs := streaming_of_run h₀ h
  refine ⟨?_, fun hstate hempty => ?_, fun op hg => ⟨(hs.flushes hg).returns, ?_⟩⟩
  · rw [hs.closed]
    split <;> omega
  · rw [hs.closed, if_pos ⟨hstate, hempty⟩]
  · intro pre fd post heq
    obtain ⟨hpre, hempty⟩ := (hs.flushes hg).flushed pre fd post heq
    have hstream := (hs.step hg).stream
    rw [hempty, List.append_nil, traceOf_append, traceOf_singleton, accepted_append,
      Call.make_outcome, ← hpre] at hstream
    exact ⟨by rw [accepted_append, hstream], hempty⟩

/-- A shutdown behind a message that is still buffered, and the writable event that flushes it. -/
theorem shutdown_flushes_buffered_message :
    let is : List (Op ℕ) := [.send [1, 2, 3] (.ok 2) (.ok 0), .shutdown, .handleWrite (.ok 1)]
    let calls := replay exec is (opened 5)
    shutdowns (traceOf calls) ≤ 1 ∧ shutdowns (traceOf calls) = 1 := by
  have h := shutdown_flushes_first (established_opened (β := ℕ) 5)
    (run_replay [.send [1, 2, 3] (.ok 2) (.ok 0), .shutdown, .handleWrite (.ok 1)]
      (by decide +kernel))
  exact ⟨h.1, h.2.1 (by decide +kernel) (by decide +kernel)⟩

end Cannet.Net
