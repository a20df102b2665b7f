import Cannet.Net.Connection.Pending

/-!
# A message with a file behind it

`sendInLoop` with a file attached, within one call: the message goes out by the direct write, the
file by the `sendfile` after it. When that `sendfile` takes all of the file, the code releases
`sendFile_` only if there is a callback to queue, and then reads it again in an assertion; without
a callback it returns with the sent file still attached. A file of length zero stays attached too
when the `sendfile` fails. So the call does what it is for only when it does not finish
(`file_send_completes_iff`).
-/

namespace Cannet.Net

open Foundations TcpConnection

variable {β : Type}

/-- A `sendfile` that took `len` bytes. -/
def Effect.takesFile (len : ℕ) : Effect β → Bool
  | .sendfile _ _ _ _ (.ok n) => len ≤ n
  | _ => false

/-- The message and the whole file went to the kernel within the call, which does `es`: nothing does
on a closed connection, and an empty file is out once the message is. -/
def HandedOver (message : List β) (file : SendFileUtil) (c : TcpConnection β)
    (es : List (Effect β)) : Prop :=
  c.state ≠ .kDisconnected ∧ accepted es = message ∧
    (file.sendLen = 0 ∨ es.any (Effect.takesFile file.sendLen) = true)

/-- What is left to do when everything is out: no file is attached, write interest is not on
unless it was, and the callback is queued once, if set. -/
structure FileDone (c : TcpConnection β) (o : Outcome Abort (Effect β) (TcpConnection β) Unit) :
    Prop where
  released : o.state.sendFile = none
  quiet : o.state.channel.isWriting = true → c.channel.isWriting = true
  reported : completions o.trace = if c.writeCompleteCallback.isSome then 1 else 0

/-- **`sendInLoop` with an attached file completes correctly**: it runs to its end, and once
everything went to the kernel nothing is left to do. -/
def FileSendCompletes [Inhabited β] (w f : SysRet) (message : List β) (file : SendFileUtil)
    (c : TcpConnection β) : Prop :=
  (sendInLoop w f message message.length c).val = .ok () ∧
    (HandedOver message file c (sendInLoop w f message message.length c).trace →
      FileDone c (sendInLoop w f message message.length c))

/-! ## How far the message gets -/

/-- `sendInLoop` makes its direct write. -/
def WritesDirectly (c : TcpConnection β) : Prop :=
  c.channel.isWriting = false ∧ c.outputBuffer.readable = []

/-- The direct write takes all of the message, or there is nothing to write. -/
def MessageOut (w : SysRet) (message : List β) (c : TcpConnection β) : Prop :=
  message = [] ∨ WritesDirectly c ∧ message.length ≤ w.count

/-- The direct write finds the connection dead. -/
def MessageLost (w : SysRet) (c : TcpConnection β) : Prop :=
  WritesDirectly c ∧ w.isFault = true

instance [DecidableEq β] (c : TcpConnection β) : Decidable (WritesDirectly c) :=
  inferInstanceAs (Decidable (_ ∧ _))

instance [DecidableEq β] (w : SysRet) (message : List β) (c : TcpConnection β) :
    Decidable (MessageOut w message c) :=
  inferInstanceAs (Decidable (_ ∨ _ ∧ _))

instance [DecidableEq β] (w : SysRet) (c : TcpConnection β) : Decidable (MessageLost w c) :=
  inferInstanceAs (Decidable (_ ∧ _))

namespace TcpConnection.Direct

variable {w : SysRet} {data : List β} {c : TcpConnection β} {d : Written} {es : List (Effect β)}

theorem not_writesDirectly (h : c.channel.isWriting = true ∨ c.outputBuffer.readable ≠ []) :
    ¬WritesDirectly c := by
  rintro ⟨hoff, hempty⟩
  rcases h with hon | hne
  · simp [hon] at hoff
  · exact hne hempty

theorem length_le_nwrote_iff (hd : Direct w data c d es) :
    data.length ≤ d.nwrote ↔ MessageOut w data c := by
  cases hd with
  | skipped h => simp [MessageOut, not_writesDirectly h]
  | wrote n hw hoff hempty =>
    simp only [MessageOut, WritesDirectly, hoff, hempty, true_and, hw, SysRet.count]
    refine ⟨.inr, ?_⟩
    rintro (rfl | hle)
    · exact Nat.zero_le _
    · exact hle
  | failed e hw hoff hempty => simp [MessageOut, hw, SysRet.count]

theorem faultError_iff (hd : Direct w data c d es) :
    d.faultError = true ↔ MessageLost w c := by
  cases hd with
  | skipped h => simp [MessageLost, not_writesDirectly h]
  | wrote n hw hoff hempty => simp [MessageLost, hw, SysRet.isFault]
  | failed e hw hoff hempty =>
    simp [MessageLost, WritesDirectly, hoff, hempty, hw, SysRet.isFault]

theorem no_takesFile (hd : Direct w data c d es) (len : ℕ) :
    es.any (Effect.takesFile len) = false := by
  cases hd with
  | skipped _ => rfl
  | wrote n _ _ _ =>
    split
    · unfold completion
      split <;> rfl
    · rfl
  | failed e _ _ _ => rfl

end TcpConnection.Direct

theorem any_takesFile_writingOnCalls (ch : Channel) (len : ℕ) :
    (ch.writingOnCalls : List (Effect β)).any (Effect.takesFile len) = false := by
  unfold Channel.writingOnCalls
  split <;> rfl

/-! ## Every outcome -/

theorem sendInLoop_disconnected [Inhabited β] (w f : SysRet) (message : List β)
    {c : TcpConnection β} (hs : c.state = .kDisconnected) :
    sendInLoop w f message message.length c =
      ⟨.ok (), c, [.sendInLoop message message.length]⟩ := by
  rw [sendInLoop, Act.emit_bind, Act.get_bind, Act.ite_apply, if_pos hs]
  rfl

/-- The message is accepted as a whole exactly when the direct write leaves nothing of it. -/
theorem TcpConnection.Direct.accepted_eq_iff {w : SysRet} {message : List β} {c : TcpConnection β}
    {d : Written} {es : List (Effect β)} (hd : Direct w message c d es) :
    accepted es = message ↔ message.length ≤ d.nwrote := by
  rw [hd.accepted_eq, List.take_eq_self_iff]

namespace TcpConnection.FileOutcome

variable {f : SysRet} {file : SendFileUtil} {c : TcpConnection β}
  {o : Outcome Abort (Effect β) (TcpConnection β) Unit}

theorem accepted_eq (ho : FileOutcome f file c o) : accepted o.trace = [] := by
  cases ho with
  | failed | sent | released => rfl
  | blocked | short => simp [sendfileCall, Effect.acceptedBytes]

/-- The file branch when `sendfile` does not finish the file. -/
theorem unfinished (ho : FileOutcome f file c o) (hf : f.finishes (some file) = false) :
    o.val = .ok () ∧ o.trace.any (Effect.takesFile file.sendLen) = false := by
  cases ho with
  | failed e hf' _ =>
    subst hf'
    exact ⟨rfl, rfl⟩
  | blocked e hf' _ _ =>
    subst hf'
    refine ⟨rfl, ?_⟩
    simp [any_takesFile_writingOnCalls, sendfileCall, Effect.takesFile]
  | short n hf' hn =>
    subst hf'
    refine ⟨rfl, ?_⟩
    simp [any_takesFile_writingOnCalls, sendfileCall, Effect.takesFile, hn]
  | sent n hf' hn _ | released n hf' hn _ =>
    subst hf'
    simp [SysRet.finishes, Nat.not_lt.2 hn] at hf

/-- An empty file that `sendfile` fails on stays attached. -/
theorem attached_of_empty (ho : FileOutcome f file c o) (hf : f.finishes (some file) = false)
    (hlen : file.sendLen = 0) : o.state.sendFile = c.sendFile := by
  cases ho with
  | failed => rfl
  | blocked _ _ _ hpos | short _ _ hpos => omega
  | sent n hf' hn _ | released n hf' hn _ =>
    subst hf'
    simp [SysRet.finishes, Nat.not_lt.2 hn] at hf

/-- With the branch for the file at its end, the message was accepted if it was out before. -/
theorem accepted_eq_iff (ho : FileOutcome f file c o) {w : SysRet} {message : List β}
    {d : Written} {es : List (Effect β)} (hd : Direct w message c d es) :
    accepted (.sendInLoop message message.length :: es ++ o.trace) = message ↔
      MessageOut w message c := by
  rw [← hd.length_le_nwrote_iff, ← hd.accepted_eq_iff, accepted_append, ho.accepted_eq,
    List.append_nil]
  rfl

end TcpConnection.FileOutcome

section Finished

variable [Inhabited β] {w f : SysRet} {message : List β} {file : SendFileUtil}
  {c : TcpConnection β} {d : Written} {es : List (Effect β)}
  {o : Outcome Abort (Effect β) (TcpConnection β) Unit}

/-- The call when `sendfile` takes the whole file: it reads `sendFile_` after releasing it, or
returns with it still attached. -/
theorem fileSendCompletes_of_finished (hs : c.state ≠ .kDisconnected)
    (hd : Direct w message c d es) {n : ℕ} (hf : f = .ok n) (hn : file.sendLen ≤ n)
    (ho : FileOutcome f file c o)
    (heq : sendInLoop w f message message.length c =
      o.after (.sendInLoop message message.length :: es)) :
    FileSendCompletes w f message file c ↔
      ¬MessageOut w message c ∧ c.writeCompleteCallback.isSome = false := by
  have hout := ho.accepted_eq_iff hd
  rw [FileSendCompletes, heq]
  cases ho with
  | failed e hf' _ | blocked e hf' _ _ => cases hf.symm.trans hf'
  | short m hf' hm =>
    obtain rfl := SysRet.ok.inj (hf.symm.trans hf')
    omega
  | sent m hf' _ hcb =>
    constructor
    · rintro ⟨-, hdone⟩
      refine ⟨fun hmessage => ?_, hcb⟩
      have htakes : (Effect.takesFile file.sendLen (sendfileCall f file c)) = true := by
        simpa [sendfileCall, hf, Effect.takesFile] using hn
      have hreleased := (hdone ⟨hs, hout.2 hmessage, .inr (by simp [htakes])⟩).released
      cases hreleased
    · rintro ⟨hnot, -⟩
      exact ⟨rfl, fun h => absurd (hout.1 h.2.1) hnot⟩
  | released m _ _ hcb =>
    -- the assertion after the transfer
    refine iff_of_false ?_ (by simp [hcb])
    rintro ⟨hval, -⟩
    cases hval

/-- The call when `sendfile` does not take the whole file, or fails on an empty one. -/
theorem fileSendCompletes_of_unfinished (hs : c.state ≠ .kDisconnected)
    (hfile : c.sendFile = some file) (hd : Direct w message c d es)
    (hf : f.finishes (some file) = false) (ho : FileOutcome f file c o)
    (heq : sendInLoop w f message message.length c =
      o.after (.sendInLoop message message.length :: es)) :
    FileSendCompletes w f message file c ↔ 0 < file.sendLen ∨ ¬MessageOut w message c := by
  have hout := ho.accepted_eq_iff hd
  obtain ⟨hval, htakes⟩ := ho.unfinished hf
  have hnone : (o.after (.sendInLoop message message.length :: es)).trace.any
      (Effect.takesFile file.sendLen) = false := by
    rw [Outcome.trace_after, List.any_append, htakes]
    simp [hd.no_takesFile, Effect.takesFile]
  rw [FileSendCompletes, heq]
  constructor
  · rintro ⟨-, hdone⟩
    refine or_iff_not_imp_left.2 fun hempty hmessage => ?_
    have hlen : file.sendLen = 0 := by omega
    have hreleased := (hdone ⟨hs, hout.2 hmessage, .inl hlen⟩).released
    rw [Outcome.state_after, ho.attached_of_empty hf hlen, hfile] at hreleased
    cases hreleased
  · intro h
    refine ⟨hval, ?_⟩
    rintro ⟨-, haccepted, hover⟩
    rcases h with hpos | hnot
    · have := hover.resolve_left (by omega)
      rw [hnone] at this
      cases this
    · exact absurd (hout.1 haccepted) hnot

end Finished

/-- **When `sendInLoop` with an attached file completes correctly**: the connection is gone; the
file is not empty and not finished within the call; or the message is not out and, if that is
because the connection is found dead, the file is not finished or no callback is set. -/
theorem file_send_completes_iff [Inhabited β] (w f : SysRet) (message : List β)
    {file : SendFileUtil} {c : TcpConnection β} (hwf : c.outputBuffer.Wf)
    (hfile : c.sendFile = some file) :
    FileSendCompletes w f message file c ↔
      c.state = .kDisconnected ∨ (0 < file.sendLen ∧ f.finishes c.sendFile = false) ∨
        ¬MessageOut w message c ∧ (MessageLost w c →
          f.finishes c.sendFile = false ∨ c.writeCompleteCallback.isSome = false) := by
  by_cases hs : c.state = .kDisconnected
  · rw [FileSendCompletes, sendInLoop_disconnected w f message hs]
    exact iff_of_true ⟨rfl, fun h => absurd hs h.1⟩ (.inl hs)
  rw [or_iff_right hs]
  have ho := sendInLoop_outcome w f message hwf
  generalize heq : sendInLoop w f message message.length c = o at ho
  cases ho with
  | disconnected hs' => exact absurd hs' hs
  | buffered d es hd hfault hrest b _ _ =>
    have hnot : ¬MessageOut w message c := by
      rw [← hd.length_le_nwrote_iff]
      omega
    have hlost : ¬MessageLost w c := by simp [← hd.faultError_iff, hfault]
    refine iff_of_true ?_ (.inr ⟨hnot, fun h => absurd h hlost⟩)
    rw [FileSendCompletes, heq]
    refine ⟨rfl, fun h => absurd ?_ hnot⟩
    rw [← hd.length_le_nwrote_iff, ← hd.accepted_eq_iff]
    simpa [Effect.acceptedBytes] using h.2.1
  | finished d es _ _ hnone => simp [hfile] at hnone
  | file d es hd hdone file' hfile' o ho =>
    obtain rfl := Option.some.inj (hfile.symm.trans hfile')
    rw [hfile]
    cases hf : f.finishes (some file) with
    | false =>
      rw [fileSendCompletes_of_unfinished hs hfile hd hf ho heq]
      simp
    | true =>
      obtain ⟨n, hn, hle⟩ : ∃ n, f = .ok n ∧ file.sendLen ≤ n := by
        cases f with
        | ok n => exact ⟨n, rfl, by simpa [SysRet.finishes] using hf⟩
        | err e => cases hf
      rw [fileSendCompletes_of_finished hs hd hn hle ho heq, or_iff_right (by simp)]
      -- with the message not out, only a dead connection leads to the file
      refine and_congr_right fun hnot => ⟨fun hcb _ => .inr hcb, fun hcb => ?_⟩
      refine (hcb ?_).resolve_left (by simp)
      rw [← hd.faultError_iff]
      exact hdone.resolve_right fun hle => hnot (hd.length_le_nwrote_iff.1 hle)

/-- A header of three bytes goes out and the kernel takes one of the file's five. -/
theorem file_send_completes_of_short_sendfile :
    ∃ c : TcpConnection ℕ, c.sendFile = some ⟨3, 0, 5⟩ ∧
      (FileSendCompletes (.ok 3) (.ok 1) [1, 2, 3] ⟨3, 0, 5⟩ c ↔
        c.state = .kDisconnected ∨ (0 < 5 ∧ (SysRet.ok 1).finishes c.sendFile = false) ∨
          ¬MessageOut (.ok 3) [1, 2, 3] c ∧ (MessageLost (.ok 3) c →
            (SysRet.ok 1).finishes c.sendFile = false ∨
              c.writeCompleteCallback.isSome = false)) ∧
      FileSendCompletes (.ok 3) (.ok 1) [1, 2, 3] ⟨3, 0, 5⟩ c := by
  let c : TcpConnection ℕ := { opened 7 with sendFile := some ⟨3, 0, 5⟩ }
  have hiff := file_send_completes_iff (c := c) (.ok 3) (.ok 1) [1, 2, 3]
    (established_opened 7).wf rfl
  exact ⟨c, rfl, hiff, hiff.2 (.inr (.inl ⟨by decide, rfl⟩))⟩

/-- The header and the whole file go out. With a callback set the file that was just released is
read; without one it is still attached when `sendInLoop` returns. So is a file that could not be
opened, of length zero, when `sendfile` fails on it. -/
theorem file_send_crashes :
    (∃ c : TcpConnection ℕ, c.sendFile = some ⟨3, 0, 5⟩ ∧
      (sendInLoop (.ok 3) (.ok 5) [1, 2, 3] 3 c).val = .error .nullDereference ∧
      ¬FileSendCompletes (.ok 3) (.ok 5) [1, 2, 3] ⟨3, 0, 5⟩ c) ∧
    (∃ c : TcpConnection ℕ, c.sendFile = some ⟨3, 0, 5⟩ ∧
      (sendInLoop (.ok 3) (.ok 5) [1, 2, 3] 3 c).state.sendFile = some ⟨3, 10, 0⟩ ∧
      ¬FileSendCompletes (.ok 3) (.ok 5) [1, 2, 3] ⟨3, 0, 5⟩ c) ∧
    ∃ c : TcpConnection ℕ, c.sendFile = some ⟨-1, 0, 0⟩ ∧
      (sendInLoop (.ok 3) (.err (.other 9)) [1, 2, 3] 3 c).state.sendFile = some ⟨-1, 0, 0⟩ ∧
      ¬FileSendCompletes (.ok 3) (.err (.other 9)) [1, 2, 3] ⟨-1, 0, 0⟩ c := by
  refine ⟨⟨{ opened 7 with sendFile := some ⟨3, 0, 5⟩ }, rfl, rfl, fun h => ?_⟩,
    ⟨{ opened 7 with sendFile := some ⟨3, 0, 5⟩, writeCompleteCallback := none }, rfl, rfl,
      fun h => ?_⟩,
    ⟨{ opened 7 with sendFile := some ⟨-1, 0, 0⟩ }, rfl, rfl, fun h => ?_⟩⟩
  · cases h.1
  · cases (h.2 ⟨by decide, rfl, .inr rfl⟩).released
  · cases (h.2 ⟨by decide, rfl, .inl rfl⟩).released

end Cannet.Net
