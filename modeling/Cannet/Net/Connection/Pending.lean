import Cannet.Net.Connection.Runs

/-!
# Pending output and write interest

A connection has output pending while bytes are buffered or a file whose message was sent has
bytes left. Then it must be registered for write events, and neither the write-complete callback
nor the half-close may be issued. Every call keeps to this but two, which look at one of the two
kinds of output only (`EndsEarly`): a writable event that drains the buffer turns write interest
off and reports completion with the file still to come, and an empty message whose `sendfile`
finishes the file reports completion ahead of the buffered bytes (`noStall_iff`).
-/

namespace Cannet.Net

open Foundations TcpConnection

variable {β : Type}

/-- A system call that found the connection dead. -/
def Effect.isFault : Effect β → Bool
  | .write _ _ (.err e) => e.isFault
  | .sendfile _ _ _ _ (.err e) => e.isFault
  | _ => false

/-- Whether a message has been sent since the last file was attached. -/
def started (calls : List (ConnCall β)) : Bool :=
  calls.foldl (fun b call =>
    match call.input with
    | .send .. => true
    | .setSendFile _ => false
    | _ => b) false

theorem started_concat (calls : List (ConnCall β)) (call : ConnCall β) :
    started (calls ++ [call]) =
      match call.input with
      | .send .. => true
      | .setSendFile _ => false
      | _ => started calls := by
  rw [started, List.foldl_append]
  rfl

/-- Bytes are buffered, or the file of a sent message (`b`) is not out yet. -/
def Pending (b : Bool) (c : TcpConnection β) : Prop :=
  c.outputBuffer.readable ≠ [] ∨ b = true ∧ 0 < c.fileLeft

/-- **After a call pending output is waited for**, and the call has reported completion or closed
the sending side only with nothing pending. -/
structure NoStall (b : Bool) (o : Outcome Abort (Effect β) (TcpConnection β) Unit) : Prop where
  registered : Pending b o.state → o.state.channel.isWriting = true
  finished : 0 < completions o.trace + shutdowns o.trace → ¬Pending b o.state

/-- The `sendfile` takes all that is left of the attached file. -/
def SysRet.finishes : SysRet → Option SendFileUtil → Bool
  | .ok n, some file => file.sendLen ≤ n
  | _, _ => false

/-- A writable event whose `write` takes all that is buffered while the file of a sent message is
left, or an empty message whose `sendfile` finishes the file while bytes are buffered. -/
def EndsEarly (b : Bool) (op : Op β) (c : TcpConnection β) : Prop :=
  match op with
  | .handleWrite r => b = true ∧ 0 < c.fileLeft ∧ c.outputBuffer.readable ≠ [] ∧
      r = .ok c.outputBuffer.readable.length
  | .send message _ f => message = [] ∧ c.outputBuffer.readable ≠ [] ∧
      c.writeCompleteCallback.isSome = true ∧ f.finishes c.sendFile = true
  | _ => False

instance [DecidableEq β] (b : Bool) (op : Op β) (c : TcpConnection β) :
    Decidable (EndsEarly b op c) :=
  match op with
  | .handleWrite _ => inferInstanceAs (Decidable (_ ∧ _ ∧ _ ∧ _))
  | .send .. => inferInstanceAs (Decidable (_ ∧ _ ∧ _ ∧ _))
  | .shutdown | .startRead | .stopRead | .setSendFile _ => isFalse id

/-! ## The calls -/

theorem not_pending {b : Bool} {c : TcpConnection β} (hread : c.outputBuffer.readable = [])
    (hleft : b = true → c.fileLeft = 0) : ¬Pending b c := by
  rintro (hne | ⟨hb, hpos⟩)
  · exact hne hread
  · have := hleft hb
    omega

theorem noStall_of_not_pending {b : Bool} {o : Outcome Abort (Effect β) (TcpConnection β) Unit}
    (h : ¬Pending b o.state) : NoStall b o := ⟨fun h' => absurd h' h, fun _ => h⟩

/-- A call that reports nothing and leaves write interest on. -/
theorem noStall_of_writing {b : Bool} {o : Outcome Abort (Effect β) (TcpConnection β) Unit}
    (hwriting : o.state.channel.isWriting = true) (hcomp : completions o.trace = 0)
    (hshut : shutdowns o.trace = 0) : NoStall b o :=
  ⟨fun _ => hwriting, fun h => by omega⟩

section Calls

variable {b : Bool} {c : TcpConnection β} (hint : Pending b c → c.channel.isWriting = true)

include hint

/-- A call that reports nothing and leaves the output as it is. -/
theorem noStall_same {b' : Bool} {o : Outcome Abort (Effect β) (TcpConnection β) Unit}
    (hpending : Pending b' o.state → Pending b c)
    (hwriting : o.state.channel.isWriting = c.channel.isWriting)
    (hcomp : completions o.trace = 0) (hshut : shutdowns o.trace = 0) : NoStall b' o where
  registered h := by
    rw [hwriting]
    exact hint (hpending h)
  finished h := by omega

/-- The file branch of `sendInLoop`, after the direct write. -/
theorem file_noStall_iff {f : SysRet} {file : SendFileUtil} (hfile : c.sendFile = some file)
    {o : Outcome Abort (Effect β) (TcpConnection β) Unit} (ho : FileOutcome f file c o)
    (hfree : ∀ e ∈ o.trace, e.isFault = false) {es : List (Effect β)}
    (hdirect : 0 < completions es → c.outputBuffer.readable = [] ∧ c.fileLeft = 0)
    (hshut : shutdowns es = 0) :
    NoStall true (o.after es) ↔ ¬(c.outputBuffer.readable ≠ [] ∧
      c.writeCompleteCallback.isSome = true ∧ f.finishes c.sendFile = true) := by
  have hleft : c.fileLeft = file.sendLen := by rw [fileLeft, hfile]
  have hquiet : c.outputBuffer.readable ≠ [] ∨ 0 < c.fileLeft → completions es = 0 := by
    intro h
    by_contra hpos
    obtain ⟨hread, hzero⟩ := hdirect (Nat.pos_of_ne_zero hpos)
    rcases h with hne | hpos
    · exact hne hread
    · omega
  cases ho with
  | failed e hf hlen =>
    subst hf
    have hzero : c.fileLeft = 0 := by
      rw [hleft]
      refine hlen.resolve_left fun hfault => ?_
      have := hfree _ List.mem_cons_self
      simp [sendfileCall, Effect.isFault, hfault] at this
    refine iff_of_true ?_ (by simp [SysRet.finishes])
    by_cases hread : c.outputBuffer.readable = []
    · exact noStall_of_not_pending (not_pending hread fun _ => hzero)
    · refine noStall_same hint (fun _ => .inl hread) rfl ?_ ?_
      · simp [hquiet (.inl hread), sendfileCall, Effect.isCompletion]
      · simp [hshut, sendfileCall, Effect.isShutdownWrite]
  | blocked e hf _ hlen =>
    subst hf
    refine iff_of_true (noStall_of_writing (by simp) ?_ ?_) (by simp [SysRet.finishes])
    · simp [hquiet (.inr (by omega)), sendfileCall, Effect.isCompletion]
    · simp [hshut, sendfileCall, Effect.isShutdownWrite]
  | short n hf hn =>
    subst hf
    refine iff_of_true (noStall_of_writing (by simp) ?_ ?_) ?_
    · simp [hquiet (.inr (by omega)), sendfileCall, Effect.isCompletion]
    · simp [hshut, sendfileCall, Effect.isShutdownWrite]
    · simp [hfile, SysRet.finishes, hn]
  | sent n hf hn hcb =>
    refine iff_of_true ?_ (by simp [hcb])
    by_cases hread : c.outputBuffer.readable = []
    · refine noStall_of_not_pending (not_pending hread fun _ => ?_)
      simp only [Outcome.state_after, fileLeft, SendFileUtil.sent]
      omega
    · refine noStall_same hint (fun _ => .inl hread) rfl ?_ ?_
      · simp [hquiet (.inl hread), sendfileCall, Effect.isCompletion]
      · simp [hshut, sendfileCall, Effect.isShutdownWrite]
  | released n hf hn hcb =>
    subst hf
    by_cases hread : c.outputBuffer.readable = []
    · exact iff_of_true (noStall_of_not_pending (not_pending hread fun _ => rfl))
        (by simp [hread])
    · refine iff_of_false (fun h => ?_) (not_not.2 ⟨hread, hcb, ?_⟩)
      · refine h.finished ?_ (.inl hread)
        refine Nat.add_pos_left ?_ _
        simp [sendfileCall, Effect.isCompletion]
      · simpa [hfile, SysRet.finishes] using hn

/-- A message sent on a live connection. -/
theorem send_noStall_iff [Inhabited β] (hwf : c.outputBuffer.Wf)
    (hlive : c.state = .kConnected ∨ c.state = .kDisconnecting) {message : List β} {w f : SysRet}
    (hfree : ∀ e ∈ (send true w f message c).trace, e.isFault = false) :
    NoStall true (send true w f message c) ↔ ¬EndsEarly b (.send message w f) c := by
  rw [send_live w f message hlive] at hfree ⊢
  have ho := sendInLoop_outcome w f message hwf
  generalize sendInLoop w f message message.length c = o at ho hfree
  cases ho with
  | disconnected h => simp [h] at hlive
  | buffered d es hd _ hrest b' _ _ =>
    refine iff_of_true (noStall_of_writing (by simp) ?_ ?_) ?_
    · simp [hd.completions_eq hrest, Effect.isCompletion]
    · simp [hd.shutdowns_eq, Effect.isShutdownWrite]
    · rintro ⟨hnil, -⟩
      simp [hnil] at hrest
  | finished d es hd _ hfile =>
    have hzero : c.fileLeft = 0 := by rw [fileLeft, hfile]
    refine iff_of_true ?_ (by simp [EndsEarly, hfile, SysRet.finishes])
    by_cases hread : c.outputBuffer.readable = []
    · exact noStall_of_not_pending (not_pending hread fun _ => hzero)
    · refine noStall_same hint (fun _ => .inl hread) rfl ?_ ?_
      · have hcomp : completions es = 0 := by
          by_contra hpos
          exact hread (hd.completions_pos (Nat.pos_of_ne_zero hpos)).1
        simp [hcomp, Effect.isCompletion]
      · simp [hd.shutdowns_eq, Effect.isShutdownWrite]
  | file d es hd hdone file hfile o ho =>
    have hfree' : ∀ e ∈ o.trace, e.isFault = false :=
      fun e he => hfree e (List.mem_append_right _ he)
    have hcomp : 0 < completions (.sendInLoop message message.length :: es) →
        c.outputBuffer.readable = [] ∧ c.fileLeft = 0 := by
      intro h
      exact hd.completions_pos (by simpa [Effect.isCompletion] using h)
    rw [file_noStall_iff hint hfile ho hfree' hcomp
      (by simp [hd.shutdowns_eq, Effect.isShutdownWrite])]
    refine not_congr ⟨fun h => ⟨?_, h⟩, fun h => h.2⟩
    -- behind buffered bytes the direct write is skipped, so only an empty message gets here
    cases hd with
    | skipped _ => exact List.length_eq_zero_iff.1 (by simpa using hdone)
    | wrote n _ _ hempty => exact absurd hempty h.1
    | failed e _ _ hempty => exact absurd hempty h.1

/-- A writable event. -/
theorem handleWrite_noStall_iff (hwf : c.outputBuffer.Wf) {r : SysRet}
    (hlegal : ∀ e ∈ (handleWrite r c).trace, e.Legal) :
    NoStall b (handleWrite r c) ↔ ¬EndsEarly b (.handleWrite r) c := by
  have ho := handleWrite_outcome hwf hlegal
  generalize handleWrite r c = o at ho
  cases ho with
  | idle hoff =>
    apply iff_of_true (noStall_same hint id rfl rfl rfl)
    rintro ⟨-, -, hne, -⟩
    simp [hint (.inl hne)] at hoff
  | nothing _ hempty _ =>
    exact iff_of_true (noStall_same hint id rfl rfl rfl) (by simp [EndsEarly, hempty])
  | failed hon hne hr =>
    refine iff_of_true (noStall_same hint id rfl ?_ ?_) ?_
    · cases r <;> rfl
    · cases r <;> rfl
    · rintro ⟨-, -, -, rfl⟩
      exact hne (List.length_eq_zero_iff.1 hr)
  | short hon n hr _ hn b' _ _ =>
    subst hr
    apply iff_of_true (noStall_of_writing hon rfl rfl)
    rintro ⟨-, -, -, hall⟩
    rw [SysRet.ok.injEq] at hall
    omega
  | drained hon hr hne b' _ hread =>
    subst hr
    constructor
    · rintro h ⟨hb, hpos, -, -⟩
      have hoff := h.registered (.inr ⟨hb, hpos⟩)
      simp at hoff
    · intro h
      refine noStall_of_not_pending (not_pending hread fun hb => ?_)
      by_contra hleft
      exact h ⟨hb, Nat.pos_of_ne_zero hleft, hne, rfl⟩
  | fileFailed hon hempty file _ _ =>
    exact iff_of_true (noStall_of_writing hon rfl rfl) (by simp [EndsEarly, hempty])
  | fileShort hon hempty file _ n _ _ _ =>
    exact iff_of_true (noStall_of_writing hon rfl rfl) (by simp [EndsEarly, hempty])
  | fileSent _ hempty file _ n _ _ _ =>
    exact iff_of_true (noStall_of_not_pending (not_pending hempty fun _ => rfl))
      (by simp [EndsEarly, hempty])

theorem shutdown_noStall : NoStall b (shutdown true c) := by
  rw [shutdown, Act.get_bind, Act.ite_apply]
  split
  · rw [setState, Act.modify_bind, runInLoop, if_pos rfl, shutdownInLoop_apply]
    by_cases hon : c.channel.isWriting = true
    · refine noStall_same hint id rfl ?_ ?_
      · exact completions_halfClose _
      · simp [hon]
    · exact noStall_of_not_pending fun h => hon (hint h)
  · exact noStall_same hint id rfl rfl rfl

theorem reads_noStall {o : Outcome Abort (Effect β) (TcpConnection β) Unit}
    (ho : ReadsOutcome c o) : NoStall b o := by
  cases ho with
  | same => exact noStall_same hint id rfl rfl rfl
  | toggled ch reading op fd events hch => exact noStall_same hint id hch rfl rfl

end Calls

/-! ## Runs -/

/-- The kernel answers, and no system call finds the connection dead. -/
def FaultFree (call : ConnCall β) : Prop :=
  Answered call ∧ ∀ e ∈ call.outcome.trace, e.isFault = false

instance : DecidablePred (FaultFree (β := β)) := fun call =>
  inferInstanceAs (Decidable (Answered call ∧ ∀ e ∈ call.outcome.trace, e.isFault = false))

/-- The calls of a run that never ends a transfer early. -/
def Patient (calls : List (ConnCall β)) (call : ConnCall β) : Prop :=
  FaultFree call ∧ ¬EndsEarly (started calls) call.input call.before

instance [DecidableEq β] (calls : List (ConnCall β)) (call : ConnCall β) :
    Decidable (Patient calls call) :=
  inferInstanceAs (Decidable (FaultFree call ∧ ¬EndsEarly _ _ _))

/-- The invariant of such a run. -/
structure Flowing (calls : List (ConnCall β)) (c : TcpConnection β) : Prop where
  wf : c.outputBuffer.Wf
  live : c.state = .kConnected ∨ c.state = .kDisconnecting
  registered : Pending (started calls) c → c.channel.isWriting = true

theorem Established.flowing {c : TcpConnection β} (h : Established c) : Flowing [] c where
  wf := h.wf
  live := .inl h.state_eq
  registered hp := absurd hp (not_pending h.empty fun hb => by simp [started] at hb)

variable [Inhabited β] {c₀ c : TcpConnection β} {calls : List (ConnCall β)}

/-- What the next call does with the pending output. -/
theorem Flowing.noStall_iff (h : Flowing calls c) {op : Op β}
    (hg : FaultFree (Call.make exec op c)) :
    NoStall (started (calls ++ [Call.make exec op c])) (exec op c) ↔
      ¬EndsEarly (started calls) op c := by
  rw [started_concat]
  obtain ⟨hlegal, hfree⟩ := hg
  cases op with
  | send message w f => exact send_noStall_iff h.registered h.wf h.live hfree
  | handleWrite r => exact handleWrite_noStall_iff h.registered h.wf hlegal
  | shutdown => exact iff_of_true (shutdown_noStall h.registered) id
  | startRead => exact iff_of_true (reads_noStall h.registered (startRead_outcome c)) id
  | stopRead => exact iff_of_true (reads_noStall h.registered (stopRead_outcome c)) id
  | setSendFile file =>
    refine iff_of_true (noStall_same h.registered ?_ rfl rfl rfl) id
    rintro (hne | ⟨hb, -⟩)
    · exact .inl hne
    · simp at hb

theorem flowing_of_run (h₀ : Established c₀) (h : Run exec Patient c₀ calls c) :
    Flowing calls c := by
  refine h.invariant h₀.flowing fun calls c op hI hg _ => ?_
  have hs := exec_streams hI.wf hI.live hg.1.1
  exact ⟨hs.wf, hs.live, ((hI.noStall_iff hg.1).2 hg.2).registered⟩

/-- **When pending output is waited for.** As long as no call has ended a transfer early, after
every call, returned or not, pending output is registered for write events and completion and
half-close have been issued with nothing pending only, if and only if that call does not end a
transfer early either. -/
theorem pending_registered_iff (h₀ : Established c₀) (h : Run exec Patient c₀ calls c) {op : Op β}
    (hg : FaultFree (Call.make exec op c)) :
    NoStall (started (calls ++ [Call.make exec op c])) (exec op c) ↔
      ¬EndsEarly (started calls) op c :=
  (flowing_of_run h₀ h).noStall_iff hg

/-- A file of two bytes behind a message that is still buffered, at a writable event that sends
half of the message. -/
theorem pending_registered_iff_of_short_write :
    ∃ (calls : List (ConnCall ℕ)) (c : TcpConnection ℕ),
      Run exec Patient (opened 5) calls c ∧
        (NoStall (started (calls ++ [Call.make exec (.handleWrite (.ok 1)) c]))
            (exec (.handleWrite (.ok 1)) c) ↔
          ¬EndsEarly (started calls) (.handleWrite (.ok 1)) c) := by
  have hrun : Run exec Patient (opened 5 : TcpConnection ℕ) _ _ :=
    run_replay [.setSendFile ⟨7, 0, 2⟩, .send [1, 2] (.err .EWOULDBLOCK) (.ok 0)]
      (by decide +kernel)
  exact ⟨_, _, hrun, pending_registered_iff (established_opened 5) hrun (by decide +kernel)⟩

/-- A writable event that sends the whole message: write interest is off with the file to come. -/
theorem drained_message_stalls_file :
    ∃ (calls : List (ConnCall ℕ)) (c : TcpConnection ℕ),
      Run exec Patient (opened 5) calls c ∧
        FaultFree (Call.make exec (.handleWrite (.ok 2)) c) ∧
        ¬NoStall (started (calls ++ [Call.make exec (.handleWrite (.ok 2)) c]))
          (exec (.handleWrite (.ok 2)) c) := by
  refine ⟨_, _, run_replay [.setSendFile ⟨7, 0, 2⟩, .send [1, 2] (.err .EWOULDBLOCK) (.ok 0)]
    (by decide +kernel), by decide +kernel, fun h => ?_⟩
  have := h.registered (.inr (by decide +kernel))
  revert this
  decide +kernel

end Cannet.Net
