import Cannet.Net.Connection.Pending
import Cannet.Net.Connection.Transfer
import Mathlib.Data.List.DropRight

/-!
# Messages and file bodies on the wire

Which message a byte belongs to is told by a tag it carries: the bytes of the `k`th message sent
are `(k, _)`. The code moves bytes without looking at them, so tagging them changes nothing. A
file belongs to the first message sent after it was attached (`owner`).

The file must not start before its message is out, nor a later message while the file has bytes
left (`WireOrder`). This holds over every run whose sends are `Disciplined`: while a file is being
sent only an empty message on an empty buffer may follow, and the direct write of the file's own
message does not find the connection dead.
-/

namespace Cannet.Net

open Foundations TcpConnection

variable {β γ : Type}

/-- The messages sent, in call order. -/
def messages (calls : List (ConnCall β)) : List (List β) :=
  calls.filterMap fun call =>
    match call.input with
    | .send message _ _ => some message
    | _ => none

/-- The number of messages sent: the tag of the next one. -/
def sends (calls : List (ConnCall β)) : ℕ := (messages calls).length

def Op.isAttach : Op β → Bool
  | .setSendFile _ => true
  | _ => false

/-- The message the attached file belongs to: the first one sent after `setSendFile`. -/
def owner (calls : List (ConnCall β)) : ℕ :=
  sends (calls.rdropWhile fun call => !call.input.isAttach)

@[simp] theorem messages_nil : messages ([] : List (ConnCall β)) = [] := rfl

theorem messages_concat (calls : List (ConnCall β)) (call : ConnCall β) :
    messages (calls ++ [call]) = messages calls ++
      match call.input with
      | .send message _ _ => [message]
      | _ => [] := by
  rw [messages, List.filterMap_append]
  rcases call with ⟨_ | _ | _ | _ | _ | _, _, _⟩ <;> rfl

theorem sends_concat (calls : List (ConnCall β)) (call : ConnCall β) :
    sends (calls ++ [call]) =
      match call.input with
      | .send .. => sends calls + 1
      | _ => sends calls := by
  rw [sends, messages_concat]
  rcases call with ⟨_ | _ | _ | _ | _ | _, _, _⟩ <;> simp [sends]

theorem owner_concat (calls : List (ConnCall β)) (call : ConnCall β) :
    owner (calls ++ [call]) =
      match call.input with
      | .setSendFile _ => sends calls
      | _ => owner calls := by
  rw [owner, List.rdropWhile_concat]
  rcases call with ⟨_ | _ | _ | _ | _ | _, _, _⟩ <;> simp [Op.isAttach, owner, sends_concat]

/-- **Nothing of the file before its message, nothing of a later message before the file**, in
what the next call hands to the kernel. -/
structure WireOrder [Inhabited γ] (calls : List (ConnCall (ℕ × γ))) (op : Op (ℕ × γ))
    (c : TcpConnection (ℕ × γ)) : Prop where
  /-- At a `sendfile` that moves bytes every byte of the file's message has been accepted. -/
  messageFirst : ∀ pre fd inFd offset count n post,
    (exec op c).trace = pre ++ .sendfile fd inFd offset count (.ok n) :: post → 0 < n →
      (messages (calls ++ [Call.make exec op c]))[owner calls]? =
        some ((accepted (traceOf calls ++ pre)).filter fun b => b.1 = owner calls)
  /-- While the file has bytes left no byte of a later message is accepted. -/
  fileFirst : 0 < c.fileLeft → ∀ b ∈ accepted (exec op c).trace, b.1 ≤ owner calls

/-- The calls of such a run: the kernel answers, the bytes of a message carry its number, and a
file is attached only while none is. -/
def Tagged (calls : List (ConnCall (ℕ × γ))) (call : ConnCall (ℕ × γ)) : Prop :=
  Answered call ∧
    match call.input with
    | .send message _ _ => ∀ b ∈ message, b.1 = sends calls
    | .setSendFile _ => call.before.sendFile = none
    | _ => True

instance [DecidableEq γ] (calls : List (ConnCall (ℕ × γ))) (call : ConnCall (ℕ × γ)) :
    Decidable (Tagged calls call) :=
  match call with
  | ⟨.send .., _, _⟩ => inferInstanceAs (Decidable (Answered _ ∧ ∀ b ∈ _, _ = _))
  | ⟨.setSendFile _, _, _⟩ => inferInstanceAs (Decidable (Answered _ ∧ _ = _))
  | ⟨.handleWrite _, _, _⟩ | ⟨.shutdown, _, _⟩ | ⟨.startRead, _, _⟩ | ⟨.stopRead, _, _⟩ =>
    inferInstanceAs (Decidable (Answered _ ∧ True))

/-- While the file of a sent message is left, only an empty message on an empty buffer is sent;
and the direct write of the message a file is attached to does not find the connection dead. -/
def Disciplined (calls : List (ConnCall β)) (call : ConnCall β) : Prop :=
  match call.input with
  | .send message w _ => 0 < call.before.fileLeft →
      (started calls = true → message = [] ∧ call.before.outputBuffer.readable = []) ∧
      (message ≠ [] → call.before.channel.isWriting = false →
        call.before.outputBuffer.readable = [] → w.isFault = false)
  | _ => True

/-! ## The calls -/

section Calls

variable {c : TcpConnection β}

/-- A message is lost only by a direct write. -/
theorem send_faulted [Inhabited β] (hwf : c.outputBuffer.Wf)
    (hlive : c.state = .kConnected ∨ c.state = .kDisconnecting) {message : List β} {w f : SysRet}
    (h : faulted (send true w f message c).trace = true) :
    c.channel.isWriting = false ∧ c.outputBuffer.readable = [] ∧ w.isFault = true := by
  rw [send_live w f message hlive] at h
  have ho := sendInLoop_outcome w f message hwf
  generalize sendInLoop w f message message.length c = o at ho h
  have hdirect : ∀ {d es}, Direct w message c d es → faulted es = true →
      c.channel.isWriting = false ∧ c.outputBuffer.readable = [] ∧ w.isFault = true := by
    intro d es hd hes
    rw [hd.faulted_eq] at hes
    cases hd with
    | skipped | wrote => contradiction
    | failed e hw hoff hempty =>
      subst hw
      exact ⟨hoff, hempty, hes⟩
  cases ho with
  | disconnected h' => simp [h'] at hlive
  | buffered d es hd hfault => simp [hd.faulted_eq, hfault, Effect.isFaultWrite] at h
  | finished d es hd => exact hdirect hd (by simpa [Effect.isFaultWrite] using h)
  | file d es hd _ file _ o ho =>
    exact hdirect hd (by simpa [Effect.isFaultWrite, ho.quiet.faulted] using h)

/-- A `sendfile` that moves bytes in `sendInLoop` comes after the whole message. -/
theorem send_sendfile [Inhabited β] (hwf : c.outputBuffer.Wf)
    (hlive : c.state = .kConnected ∨ c.state = .kDisconnecting) {message : List β} {w f : SysRet}
    (hlegal : ∀ e ∈ (send true w f message c).trace, e.Legal) {pre post : List (Effect β)}
    {fd inFd : ℤ} {offset count n : ℕ} (hn : 0 < n)
    (h : (send true w f message c).trace = pre ++ .sendfile fd inFd offset count (.ok n) :: post) :
    0 < c.fileLeft ∧ accepted pre ++ c.outputBuffer.readable =
      c.outputBuffer.readable ++ added (.send message w f) (send true w f message c).trace := by
  rw [send_live w f message hlive] at hlegal h ⊢
  have ho := sendInLoop_outcome w f message hwf
  generalize sendInLoop w f message message.length c = o at ho hlegal h
  cases ho with
  | disconnected h' => simp [h'] at hlive
  | buffered d es hd =>
    exact no_sendfile_of_transfers_eq_nil (by simp [hd.transfers_eq, Effect.transfer]) h
  | finished d es hd =>
    exact no_sendfile_of_transfers_eq_nil (by simp [hd.transfers_eq, Effect.transfer]) h
  | file d es hd hdone file hfile o ho =>
    have hle := count_le_of_legal (hlegal _ (List.mem_append_right _ ho.sendfileCall_mem))
    obtain ⟨rest, htrace, hrest⟩ := ho.trace_eq
    have hquiet : transfers (.sendInLoop message message.length :: es) = [] := by
      simp [hd.transfers_eq, Effect.transfer]
    have hsplit : (.sendInLoop message message.length :: es) ++ sendfileCall f file c :: rest =
        pre ++ .sendfile fd inFd offset count (.ok n) :: post := by
      rw [← htrace]
      exact h
    obtain ⟨rfl, hcall, -⟩ := split_unique hsplit (not_transfer_of_transfers_eq_nil hquiet)
      (not_transfer_of_transfers_eq_nil hrest) (by simp [Effect.transfer])
    have hf : f = .ok n := by
      rw [sendfileCall, Effect.sendfile.injEq] at hcall
      exact hcall.2.2.2.2.symm
    subst hf
    refine ⟨Nat.lt_of_lt_of_le hn ?_, ?_⟩
    · rw [fileLeft, hfile]
      exact hle
    · have := hd.stream_done hdone
      simpa [added, Effect.acceptedBytes, Effect.isFaultWrite, ho.quiet.faulted] using this

/-- A `sendfile` that moves bytes in `handleWrite` is the first thing done, with nothing
buffered. -/
theorem handleWrite_sendfile (hwf : c.outputBuffer.Wf) {r : SysRet}
    (hlegal : ∀ e ∈ (handleWrite r c).trace, e.Legal) {pre post : List (Effect β)}
    {fd inFd : ℤ} {offset count n : ℕ} (hn : 0 < n)
    (h : (handleWrite r c).trace = pre ++ .sendfile fd inFd offset count (.ok n) :: post) :
    0 < c.fileLeft ∧ c.channel.isWriting = true ∧ c.outputBuffer.readable = [] ∧
      accepted pre = [] := by
  have ho := handleWrite_outcome hwf hlegal
  generalize handleWrite r c = o at ho hlegal h
  have hfile : ∀ {file rest}, c.sendFile = some file → c.channel.isWriting = true →
      c.outputBuffer.readable = [] → o.trace = sendfileCall r file c :: rest →
      transfers rest = [] → 0 < c.fileLeft ∧ c.channel.isWriting = true ∧
        c.outputBuffer.readable = [] ∧ accepted pre = [] := by
    intro file rest hfile hon hempty htrace hrest
    have hsplit : [] ++ sendfileCall r file c :: rest =
        pre ++ .sendfile fd inFd offset count (.ok n) :: post := by
      rw [List.nil_append, ← htrace, h]
    obtain ⟨rfl, hcall, -⟩ := split_unique hsplit (by simp)
      (not_transfer_of_transfers_eq_nil hrest) (by simp [Effect.transfer])
    have hr : r = .ok n := by
      rw [sendfileCall, Effect.sendfile.injEq] at hcall
      exact hcall.2.2.2.2.symm
    subst hr
    have hmem : sendfileCall (.ok n) file c ∈ o.trace := by
      rw [htrace]
      exact List.mem_cons_self
    have hle : n ≤ file.sendLen := count_le_of_legal (hlegal _ hmem)
    refine ⟨?_, hon, hempty, rfl⟩
    rw [fileLeft, hfile]
    exact Nat.lt_of_lt_of_le hn hle
  cases ho with
  | idle | nothing | failed | short => exact no_sendfile_of_transfers_eq_nil rfl h
  | drained => exact no_sendfile_of_transfers_eq_nil (by simp [Effect.transfer]) h
  | fileFailed hon hempty file hf _ => exact hfile hf hon hempty rfl rfl
  | fileShort hon hempty file hf => exact hfile hf hon hempty rfl rfl
  | fileSent hon hempty file hf => exact hfile hf hon hempty rfl (by simp)

/-- Write interest is on only while something is buffered. -/
def Idle (c : TcpConnection β) : Prop :=
  c.channel.isWriting = true → c.outputBuffer.readable ≠ []

theorem handleWrite_idle (hwf : c.outputBuffer.Wf) (hidle : Idle c) {r : SysRet}
    (hlegal : ∀ e ∈ (handleWrite r c).trace, e.Legal) : Idle (handleWrite r c).state := by
  have ho := handleWrite_outcome hwf hlegal
  generalize handleWrite r c = o at ho
  cases ho with
  | idle | nothing | failed => exact hidle
  | short _ n _ _ hn b _ hread =>
    intro _
    rw [hread, ne_eq, List.drop_eq_nil_iff]
    omega
  | drained => exact fun hon => by simp at hon
  | fileFailed hon hempty | fileShort hon hempty | fileSent hon hempty =>
    exact absurd hempty (hidle hon)

/-- A writable event that releases the file turns write interest off. -/
theorem handleWrite_released (hwf : c.outputBuffer.Wf) {r : SysRet}
    (hlegal : ∀ e ∈ (handleWrite r c).trace, e.Legal) (hsome : c.sendFile ≠ none)
    (hnone : (handleWrite r c).state.sendFile = none) : Idle (handleWrite r c).state := by
  have ho := handleWrite_outcome hwf hlegal
  generalize handleWrite r c = o at ho hnone
  cases ho with
  | idle | nothing | failed | short | drained => exact absurd hnone hsome
  | fileFailed => exact absurd hnone hsome
  | fileShort => simp at hnone
  | fileSent => exact fun hon => by simp at hon

/-- The file branch of `sendInLoop` keeps the file, or aborts. -/
theorem TcpConnection.FileOutcome.keeps_file {f : SysRet} {file : SendFileUtil}
    {o : Outcome Abort (Effect β) (TcpConnection β) Unit} (ho : FileOutcome f file c o)
    (hfile : c.sendFile = some file) :
    o.state.fileLeft ≤ c.fileLeft ∧ (o.val = .ok () → o.state.sendFile ≠ none) := by
  have hleft : c.fileLeft = file.sendLen := by rw [fileLeft, hfile]
  cases ho with
  | failed | blocked => exact ⟨Nat.le_refl _, fun _ => by simp [hfile]⟩
  | short n | sent n =>
    refine ⟨?_, fun _ => by simp⟩
    rw [hleft]
    exact Nat.sub_le file.sendLen n
  | released => exact ⟨Nat.zero_le _, fun h => by simp at h⟩

/-- What a message does to the file: nothing new is left of it, and it stays if the call
returns. -/
theorem send_file [Inhabited β] (hwf : c.outputBuffer.Wf)
    (hlive : c.state = .kConnected ∨ c.state = .kDisconnecting) (message : List β) (w f : SysRet) :
    (send true w f message c).state.fileLeft ≤ c.fileLeft ∧
      (c.sendFile = none → Idle c → Idle (send true w f message c).state) ∧
      (c.sendFile ≠ none → (send true w f message c).val = .ok () →
        (send true w f message c).state.sendFile ≠ none) := by
  rw [send_live w f message hlive]
  have ho := sendInLoop_outcome w f message hwf
  generalize sendInLoop w f message message.length c = o at ho
  cases ho with
  | disconnected h => simp [h] at hlive
  | buffered d es hd _ hrest b _ hread =>
    refine ⟨Nat.le_refl _, fun _ _ _ => ?_, fun h _ => h⟩
    rw [hread, ne_eq, List.append_eq_nil_iff, not_and_or, List.drop_eq_nil_iff]
    exact .inr (by omega)
  | finished => exact ⟨Nat.le_refl _, fun _ h => h, fun h _ => h⟩
  | file d es hd _ file hfile o ho =>
    obtain ⟨hle, hsome⟩ := ho.keeps_file hfile
    exact ⟨hle, fun hnone => by simp [hfile] at hnone, fun _ hval => hsome hval⟩

theorem handleWrite_file_le (hwf : c.outputBuffer.Wf) {r : SysRet}
    (hlegal : ∀ e ∈ (handleWrite r c).trace, e.Legal) :
    (handleWrite r c).state.fileLeft ≤ c.fileLeft := by
  have ho := handleWrite_outcome hwf hlegal
  generalize handleWrite r c = o at ho
  cases ho with
  | idle | nothing | failed | short | drained | fileFailed => exact Nat.le_refl _
  | fileShort _ _ file hfile n =>
    have hleft : c.fileLeft = file.sendLen := by rw [fileLeft, hfile]
    rw [hleft]
    exact Nat.sub_le file.sendLen n
  | fileSent => exact Nat.zero_le _

theorem handleWrite_noFile (hwf : c.outputBuffer.Wf) {r : SysRet}
    (hlegal : ∀ e ∈ (handleWrite r c).trace, e.Legal) (hnone : c.sendFile = none) :
    (handleWrite r c).state.sendFile = none := by
  have ho := handleWrite_outcome hwf hlegal
  generalize handleWrite r c = o at ho
  cases ho with
  | idle | nothing | failed | short | drained => exact hnone
  | fileFailed _ _ file hfile | fileShort _ _ file hfile => simp [hnone] at hfile
  | fileSent => rfl

theorem transfers_shutdown (c : TcpConnection β) : transfers (shutdown true c).trace = [] := by
  rw [shutdown, Act.get_bind, Act.ite_apply]
  split
  · rw [setState, Act.modify_bind, runInLoop, if_pos rfl, shutdownInLoop_apply, halfClose]
    split <;> rfl
  · rfl

theorem TcpConnection.ReadsOutcome.transfers_eq
    {o : Outcome Abort (Effect β) (TcpConnection β) Unit} (ho : ReadsOutcome c o) :
    transfers o.trace = [] := by
  cases ho <;> rfl

/-- A call that leaves the file, the write interest and the buffer alone. -/
structure SameOutput (c : TcpConnection β) (o : Outcome Abort (Effect β) (TcpConnection β) Unit) :
    Prop where
  sendFile : o.state.sendFile = c.sendFile
  isWriting : o.state.channel.isWriting = c.channel.isWriting
  outputBuffer : o.state.outputBuffer = c.outputBuffer

theorem SameOutput.fileLeft_eq {o : Outcome Abort (Effect β) (TcpConnection β) Unit}
    (h : SameOutput c o) : o.state.fileLeft = c.fileLeft := by
  rw [fileLeft, fileLeft, h.sendFile]

theorem SameOutput.idle {o : Outcome Abort (Effect β) (TcpConnection β) Unit}
    (h : SameOutput c o) (hidle : Idle c) : Idle o.state := by
  intro hon
  rw [h.outputBuffer]
  exact hidle (h.isWriting ▸ hon)

theorem shutdown_sameOutput (c : TcpConnection β) : SameOutput c (shutdown true c) := by
  rw [shutdown, Act.get_bind, Act.ite_apply]
  split
  · rw [setState, Act.modify_bind, runInLoop, if_pos rfl, shutdownInLoop_apply]
    exact ⟨rfl, rfl, rfl⟩
  · exact ⟨rfl, rfl, rfl⟩

theorem TcpConnection.ReadsOutcome.sameOutput
    {o : Outcome Abort (Effect β) (TcpConnection β) Unit} (ho : ReadsOutcome c o) :
    SameOutput c o := by
  cases ho with
  | same => exact ⟨rfl, rfl, rfl⟩
  | toggled ch reading op fd events hch => exact ⟨rfl, hch, rfl⟩

end Calls

/-! ## Runs -/

/-- The invariant of a disciplined run. -/
structure Ordered (calls : List (ConnCall (ℕ × γ))) (c : TcpConnection (ℕ × γ)) : Prop where
  wf : c.outputBuffer.Wf
  live : c.state = .kConnected ∨ c.state = .kDisconnecting
  stream : accepted (traceOf calls) ++ c.outputBuffer.readable = delivered calls
  tags : ∀ b ∈ delivered calls, b.1 < sends calls
  idle : c.sendFile = none ∨ started calls = false → Idle c
  fresh : started calls = false → c.sendFile ≠ none → owner calls = sends calls
  /-- While a file is being sent only its own message may still be buffered, and that message is
  in the stream. -/
  sending : started calls = true → 0 < c.fileLeft →
    (∀ b ∈ c.outputBuffer.readable, b.1 ≤ owner calls) ∧
      (messages calls)[owner calls]? =
        some ((delivered calls).filter fun b => b.1 = owner calls)

theorem Established.ordered {c : TcpConnection (ℕ × γ)} (h : Established c) : Ordered [] c where
  wf := h.wf
  live := .inl h.state_eq
  stream := by simp [h.empty]
  tags := by simp
  idle _ hon := by simp [h.notWriting] at hon
  fresh _ hfile := absurd h.noFile hfile
  sending hb := by simp [started] at hb

theorem mem_of_mem_added {message : List β} {w f : SysRet} {es : List (Effect β)} {b : β}
    (hb : b ∈ added (.send message w f) es) : b ∈ message := by
  simp only [added] at hb
  split at hb
  · contradiction
  · exact hb

theorem filter_tag_eq_nil {l : List (ℕ × γ)} {k : ℕ} (h : ∀ b ∈ l, b.1 < k) :
    (l.filter fun b => b.1 = k) = [] := by
  rw [List.filter_eq_nil_iff]
  intro b hb
  have := h b hb
  simp
  omega

theorem filter_tag_eq_self {l : List (ℕ × γ)} {k : ℕ} (h : ∀ b ∈ l, b.1 = k) :
    (l.filter fun b => b.1 = k) = l := by
  rw [List.filter_eq_self]
  intro b hb
  simp [h b hb]

theorem sendFile_ne_none_of_fileLeft {c : TcpConnection β} (h : 0 < c.fileLeft) :
    c.sendFile ≠ none := by
  intro hnone
  rw [fileLeft, hnone] at h
  exact absurd h (Nat.lt_irrefl 0)

namespace Ordered

variable {calls : List (ConnCall (ℕ × γ))} {c : TcpConnection (ℕ × γ)}
  {op : Op (ℕ × γ)}

/-- A buffered byte is in the stream. -/
theorem mem_delivered (h : Ordered calls c) {b : ℕ × γ} (hb : b ∈ c.outputBuffer.readable) :
    b ∈ delivered calls := by
  rw [← h.stream]
  exact List.mem_append_right _ hb

variable [Inhabited γ]

/-- While the file has bytes left no byte of a later message is buffered or added. -/
theorem le_owner (h : Ordered calls c) (ht : Tagged calls (Call.make exec op c))
    (hd : Disciplined calls (Call.make exec op c)) (hleft : 0 < c.fileLeft)
    (es : List (Effect (ℕ × γ))) :
    ∀ b ∈ c.outputBuffer.readable ++ added op es, b.1 ≤ owner calls := by
  intro b hb
  rcases List.mem_append.1 hb with hb | hb
  · cases hs : started calls with
    | true => exact (h.sending hs hleft).1 b hb
    | false =>
      rw [h.fresh hs (sendFile_ne_none_of_fileLeft hleft)]
      exact Nat.le_of_lt (h.tags b (h.mem_delivered hb))
  · cases op with
    | send message w f =>
      have hmem := mem_of_mem_added hb
      cases hs : started calls with
      | true => simp [((hd hleft).1 hs).1] at hmem
      | false =>
        rw [h.fresh hs (sendFile_ne_none_of_fileLeft hleft)]
        exact Nat.le_of_eq (ht.2 b hmem)
    | _ => simp [added] at hb

/-- The bytes the next call gets accepted while the file is left. -/
theorem fileFirst (h : Ordered calls c) (ht : Tagged calls (Call.make exec op c))
    (hd : Disciplined calls (Call.make exec op c)) (hleft : 0 < c.fileLeft) :
    ∀ b ∈ accepted (exec op c).trace, b.1 ≤ owner calls := by
  intro b hb
  have hstream := (exec_streams h.wf h.live ht.1).stream
  apply h.le_owner ht hd hleft (exec op c).trace b
  rw [← hstream]
  exact List.mem_append_left _ hb

/-- While the file has bytes left no message is lost. -/
theorem added_send (h : Ordered calls c) {message : List (ℕ × γ)} {w f : SysRet}
    (hd : Disciplined calls (Call.make exec (.send message w f) c)) (hleft : 0 < c.fileLeft) :
    added (.send message w f) (exec (.send message w f) c).trace = message := by
  simp only [added]
  split
  · rename_i hlost
    obtain ⟨hoff, hempty, hfault⟩ := send_faulted h.wf h.live hlost
    by_contra hne
    rw [(hd hleft).2 (fun hnil => hne hnil.symm) hoff hempty] at hfault
    contradiction
  · rfl

theorem messages_send (message : List (ℕ × γ)) (w f : SysRet) :
    messages (calls ++ [Call.make exec (.send message w f) c]) = messages calls ++ [message] :=
  messages_concat _ _

omit [Inhabited γ] in
/-- The message of a file that is being sent comes before the message sent next. -/
theorem owner_lt (h : Ordered calls c) (hs : started calls = true) (hleft : 0 < c.fileLeft) :
    owner calls < sends calls := by
  obtain ⟨hlt, -⟩ := List.getElem?_eq_some_iff.1 (h.sending hs hleft).2
  exact hlt

/-- A message sent in front of its file, or an empty one behind a file, is whole on the wire when
the file's bytes move. -/
theorem send_messageFirst (h : Ordered calls c) {message : List (ℕ × γ)} {w f : SysRet}
    (ht : Tagged calls (Call.make exec (.send message w f) c))
    (hd : Disciplined calls (Call.make exec (.send message w f) c))
    {pre post : List (Effect (ℕ × γ))} {fd inFd : ℤ} {offset count n : ℕ}
    (heq : (exec (.send message w f) c).trace =
      pre ++ .sendfile fd inFd offset count (.ok n) :: post) (hn : 0 < n) :
    (messages (calls ++ [Call.make exec (.send message w f) c]))[owner calls]? =
      some ((accepted (traceOf calls ++ pre)).filter fun b => b.1 = owner calls) := by
  obtain ⟨hleft, hpre⟩ := send_sendfile h.wf h.live ht.1 hn heq
  have hadded := h.added_send hd hleft
  have hstream := h.stream
  simp only [exec] at hadded
  rw [hadded] at hpre
  rw [messages_send, accepted_append, List.filter_append]
  cases hs : started calls with
  | true =>
    obtain ⟨hnil, hempty⟩ : message = [] ∧ c.outputBuffer.readable = [] := (hd hleft).1 hs
    rw [List.getElem?_append_left (h.owner_lt hs hleft), (h.sending hs hleft).2]
    simp only [hempty, hnil, List.append_nil] at hpre hstream
    rw [hpre, hstream, List.filter_nil, List.append_nil]
  | false =>
    have howner := h.fresh hs (sendFile_ne_none_of_fileLeft hleft)
    have hold : ∀ l : List (ℕ × γ), (∀ b ∈ l, b ∈ delivered calls) →
        (l.filter fun b => b.1 = owner calls) = [] := fun l hl =>
      filter_tag_eq_nil fun b hb => by
        rw [howner]
        exact h.tags b (hl b hb)
    have haccepted := hold (accepted (traceOf calls)) fun b hb => by
      rw [← hstream]
      exact List.mem_append_left _ hb
    have hbuffered := hold c.outputBuffer.readable fun b hb => h.mem_delivered hb
    have hmessage : (message.filter fun b => b.1 = owner calls) = message :=
      filter_tag_eq_self fun b hb => (ht.2 b hb).trans howner.symm
    have hfilter := congrArg (List.filter fun b => b.1 = owner calls) hpre
    rw [List.filter_append, List.filter_append, hbuffered, hmessage, List.append_nil,
      List.nil_append] at hfilter
    rw [hfilter, haccepted, List.nil_append, howner]
    exact List.getElem?_concat_length

/-- The file's bytes move in `handleWrite` with everything sent on the wire. -/
theorem handleWrite_messageFirst (h : Ordered calls c) {r : SysRet}
    (ht : Tagged calls (Call.make exec (.handleWrite r) c))
    {pre post : List (Effect (ℕ × γ))} {fd inFd : ℤ} {offset count n : ℕ}
    (heq : (exec (.handleWrite r) c).trace =
      pre ++ .sendfile fd inFd offset count (.ok n) :: post) (hn : 0 < n) :
    (messages (calls ++ [Call.make exec (.handleWrite r) c]))[owner calls]? =
      some ((accepted (traceOf calls ++ pre)).filter fun b => b.1 = owner calls) := by
  obtain ⟨hleft, hon, hempty, hpre⟩ := handleWrite_sendfile h.wf ht.1 hn heq
  have hs : started calls = true := by
    by_contra hs
    exact h.idle (.inr (Bool.eq_false_iff.2 hs)) hon hempty
  have hstream := h.stream
  rw [hempty, List.append_nil] at hstream
  rw [messages_concat, accepted_append, hpre, List.append_nil, hstream, Call.make_input,
    List.append_nil]
  exact (h.sending hs hleft).2

/-- **What the next call of a disciplined run hands to the kernel is in order.** -/
theorem wireOrder (h : Ordered calls c) (ht : Tagged calls (Call.make exec op c))
    (hd : Disciplined calls (Call.make exec op c)) : WireOrder calls op c where
  fileFirst := h.fileFirst ht hd
  messageFirst pre fd inFd offset count n post heq hn := by
    cases op with
    | send message w f => exact h.send_messageFirst ht hd heq hn
    | handleWrite r => exact h.handleWrite_messageFirst ht heq hn
    | shutdown => exact no_sendfile_of_transfers_eq_nil (transfers_shutdown c) heq
    | startRead => exact no_sendfile_of_transfers_eq_nil (startRead_outcome c).transfers_eq heq
    | stopRead => exact no_sendfile_of_transfers_eq_nil (stopRead_outcome c).transfers_eq heq
    | setSendFile file => exact no_sendfile_of_transfers_eq_nil rfl heq

/-- Every byte in the stream belongs to a message that has been sent. -/
theorem tags_step (h : Ordered calls c) (ht : Tagged calls (Call.make exec op c)) :
    ∀ b ∈ delivered (calls ++ [Call.make exec op c]),
      b.1 < sends (calls ++ [Call.make exec op c]) := by
  intro b hb
  rw [delivered_append, delivered_make, List.mem_append] at hb
  rw [sends_concat]
  cases op with
  | send message w f =>
    rcases hb with hb | hb
    · exact Nat.lt_succ_of_lt (h.tags b hb)
    · have := ht.2 b (mem_of_mem_added hb)
      exact Nat.lt_succ_of_le (Nat.le_of_eq this)
  | _ => exact h.tags b (by simpa [added] using hb)

/-- A call that sends no message and attaches no file. -/
theorem step_other (h : Ordered calls c) (ht : Tagged calls (Call.make exec op c))
    (hadd : ∀ es, added op es = [])
    (hmessages : messages (calls ++ [Call.make exec op c]) = messages calls)
    (howner : owner (calls ++ [Call.make exec op c]) = owner calls)
    (hstarted : started (calls ++ [Call.make exec op c]) = started calls)
    (hfile : c.sendFile = none → (exec op c).state.sendFile = none)
    (hle : (exec op c).state.fileLeft ≤ c.fileLeft)
    (hidle : (exec op c).state.sendFile = none ∨ started calls = false →
      Idle (exec op c).state) :
    Ordered (calls ++ [Call.make exec op c]) (exec op c).state := by
  have hs := exec_streams h.wf h.live ht.1
  have hdelivered : delivered (calls ++ [Call.make exec op c]) = delivered calls := by
    rw [delivered_append, delivered_make, hadd, List.append_nil]
  refine ⟨hs.wf, hs.live, hs.append h.stream, h.tags_step ht, ?_, ?_, ?_⟩
  · rw [hstarted]
    exact hidle
  · rw [hstarted, howner, sends, hmessages]
    exact fun hb hsome => h.fresh hb fun hnone => hsome (hfile hnone)
  · rw [hstarted, howner, hmessages, hdelivered]
    intro hb hleft
    obtain ⟨hread, hmessage⟩ := h.sending hb (Nat.lt_of_lt_of_le hleft hle)
    refine ⟨fun b hmem => hread b ?_, hmessage⟩
    have hstream := hs.stream
    rw [hadd, List.append_nil] at hstream
    rw [← hstream]
    exact List.mem_append_right _ hmem

/-- A message. -/
theorem step_send (h : Ordered calls c) {message : List (ℕ × γ)} {w f : SysRet}
    (ht : Tagged calls (Call.make exec (.send message w f) c))
    (hd : Disciplined calls (Call.make exec (.send message w f) c))
    (hval : (exec (.send message w f) c).val = .ok ()) :
    Ordered (calls ++ [Call.make exec (.send message w f) c])
      (exec (.send message w f) c).state := by
  have hs := exec_streams h.wf h.live ht.1
  obtain ⟨hle, hidle, hkeep⟩ := send_file h.wf h.live message w f
  have hstarted : started (calls ++ [Call.make exec (.send message w f) c]) = true :=
    started_concat _ _
  have howner : owner (calls ++ [Call.make exec (.send message w f) c]) = owner calls :=
    owner_concat _ _
  refine ⟨hs.wf, hs.live, hs.append h.stream, h.tags_step ht, ?_, ?_, ?_⟩
  · rw [hstarted]
    rintro (hnone | hb)
    · by_cases hfile : c.sendFile = none
      · exact hidle hfile (h.idle (.inl hfile))
      · exact absurd hnone (hkeep hfile hval)
    · contradiction
  · rw [hstarted]
    exact fun hb => absurd hb (by simp)
  · intro _ hleft'
    have hleft : 0 < c.fileLeft := Nat.lt_of_lt_of_le hleft' hle
    have hadded := h.added_send hd hleft
    rw [howner, messages_send, delivered_append, delivered_make, hadded, List.filter_append]
    refine ⟨fun b hb => h.le_owner ht hd hleft (exec (.send message w f) c).trace b ?_, ?_⟩
    · rw [← hs.stream]
      exact List.mem_append_right _ hb
    · cases hb : started calls with
      | true =>
        have hnil : message = [] := ((hd hleft).1 hb).1
        rw [List.getElem?_append_left (h.owner_lt hb hleft), (h.sending hb hleft).2, hnil,
          List.filter_nil, List.append_nil]
      | false =>
        have howner' := h.fresh hb (sendFile_ne_none_of_fileLeft hleft)
        have hold : ((delivered calls).filter fun b => b.1 = owner calls) = [] :=
          filter_tag_eq_nil fun b hb => by
            rw [howner']
            exact h.tags b hb
        have hmessage : (message.filter fun b => b.1 = owner calls) = message :=
          filter_tag_eq_self fun b hb => (ht.2 b hb).trans howner'.symm
        rw [hold, hmessage, List.nil_append, howner']
        exact List.getElem?_concat_length

/-- A file attached while none is. -/
theorem step_setSendFile (h : Ordered calls c) {file : SendFileUtil}
    (ht : Tagged calls (Call.make exec (.setSendFile file) c)) :
    Ordered (calls ++ [Call.make exec (.setSendFile file) c])
      (exec (.setSendFile file) c).state := by
  have hs := exec_streams h.wf h.live ht.1
  have hstarted : started (calls ++ [Call.make exec (.setSendFile file) c]) = false :=
    started_concat _ _
  refine ⟨hs.wf, hs.live, hs.append h.stream, h.tags_step ht, ?_, ?_, ?_⟩
  · exact fun _ => h.idle (.inl ht.2)
  · intro _ _
    rw [owner_concat, sends_concat]
    rfl
  · rw [hstarted]
    exact fun hb => absurd hb (by simp)

/-- **Each call of a disciplined run keeps the invariant.** -/
theorem step (h : Ordered calls c) (ht : Tagged calls (Call.make exec op c))
    (hd : Disciplined calls (Call.make exec op c)) (hval : (exec op c).val = .ok ()) :
    Ordered (calls ++ [Call.make exec op c]) (exec op c).state := by
  have hsame : SameOutput c (exec op c) → ((exec op c).state.sendFile = none ∨
      started calls = false → Idle (exec op c).state) := by
    rintro hsame (hnone | hb)
    · exact hsame.idle (h.idle (.inl (hsame.sendFile ▸ hnone)))
    · exact hsame.idle (h.idle (.inr hb))
  cases op with
  | send message w f => exact h.step_send ht hd hval
  | setSendFile file => exact h.step_setSendFile ht
  | handleWrite r =>
    refine h.step_other ht (fun _ => rfl) ((messages_concat _ _).trans (List.append_nil _))
      (owner_concat _ _) (started_concat _ _) (handleWrite_noFile h.wf ht.1)
      (handleWrite_file_le h.wf ht.1) ?_
    rintro (hnone | hb)
    · by_cases hfile : c.sendFile = none
      · exact handleWrite_idle h.wf (h.idle (.inl hfile)) ht.1
      · exact handleWrite_released h.wf ht.1 hfile hnone
    · exact handleWrite_idle h.wf (h.idle (.inr hb)) ht.1
  | shutdown =>
    have hs := shutdown_sameOutput c
    exact h.step_other ht (fun _ => rfl) ((messages_concat _ _).trans (List.append_nil _))
      (owner_concat _ _) (started_concat _ _) (fun hnone => hs.sendFile.trans hnone)
      (Nat.le_of_eq hs.fileLeft_eq) (hsame hs)
  | startRead =>
    have hs := (startRead_outcome c).sameOutput
    exact h.step_other ht (fun _ => rfl) ((messages_concat _ _).trans (List.append_nil _))
      (owner_concat _ _) (started_concat _ _) (fun hnone => hs.sendFile.trans hnone)
      (Nat.le_of_eq hs.fileLeft_eq) (hsame hs)
  | stopRead =>
    have hs := (stopRead_outcome c).sameOutput
    exact h.step_other ht (fun _ => rfl) ((messages_concat _ _).trans (List.append_nil _))
      (owner_concat _ _) (started_concat _ _) (fun hnone => hs.sendFile.trans hnone)
      (Nat.le_of_eq hs.fileLeft_eq) (hsame hs)

end Ordered

/-- The calls of a disciplined run. -/
def InOrder (calls : List (ConnCall (ℕ × γ))) (call : ConnCall (ℕ × γ)) : Prop :=
  Tagged calls call ∧ Disciplined calls call

instance [DecidableEq γ] (calls : List (ConnCall (ℕ × γ))) (call : ConnCall (ℕ × γ)) :
    Decidable (InOrder calls call) :=
  match call with
  | ⟨.send .., _, _⟩ =>
    inferInstanceAs (Decidable ((Answered _ ∧ ∀ b ∈ _, _ = _) ∧ (_ < _ → (_ → _ ∧ _) ∧ (_ → _))))
  | ⟨.setSendFile _, _, _⟩ => inferInstanceAs (Decidable ((Answered _ ∧ _ = _) ∧ True))
  | ⟨.handleWrite _, _, _⟩ | ⟨.shutdown, _, _⟩ | ⟨.startRead, _, _⟩ | ⟨.stopRead, _, _⟩ =>
    inferInstanceAs (Decidable ((Answered _ ∧ True) ∧ True))

variable [Inhabited γ] {c₀ c : TcpConnection (ℕ × γ)} {calls : List (ConnCall (ℕ × γ))}

theorem ordered_of_run (h₀ : Established c₀) (h : Run exec InOrder c₀ calls c) :
    Ordered calls c :=
  h.invariant h₀.ordered fun _ _ _ hI hg hval => hI.step hg.1 hg.2 hval

/-- **Sends and file bodies do not interleave** in a run whose sends are all disciplined: no call
of it, returned or not, hands the kernel a byte of a file before its whole message, or a byte of
a later message while the file has bytes left. -/
theorem wire_order_of_disciplined (h₀ : Established c₀) (h : Run exec InOrder c₀ calls c)
    {op : Op (ℕ × γ)} (hg : InOrder calls (Call.make exec op c)) : WireOrder calls op c :=
  (ordered_of_run h₀ h).wireOrder hg.1 hg.2

/-- A file of two bytes behind a message of one, half of it out, at the next writable event. -/
theorem wire_order_of_short_sendfile :
    ∃ (calls : List (ConnCall (ℕ × ℕ))) (c : TcpConnection (ℕ × ℕ)),
      Run exec InOrder (opened 5) calls c ∧ WireOrder calls (.handleWrite (.ok 1)) c := by
  have hrun : Run exec InOrder (opened 5 : TcpConnection (ℕ × ℕ)) _ _ :=
    run_replay [.setSendFile ⟨7, 0, 2⟩, .send [(0, 10)] (.ok 1) (.ok 1)] (by decide +kernel)
  exact ⟨_, _, hrun, wire_order_of_disciplined (established_opened 5) hrun (by decide +kernel)⟩

/-- A second message sent behind that one while both wait for the socket goes out with it, with
the file still to come. -/
theorem later_message_overtakes_file :
    ∃ (calls : List (ConnCall (ℕ × ℕ))) (c : TcpConnection (ℕ × ℕ)),
      Run exec Tagged (opened 5) calls c ∧ Tagged calls (Call.make exec (.handleWrite (.ok 2)) c) ∧
        ¬WireOrder calls (.handleWrite (.ok 2)) c := by
  refine ⟨_, _, run_replay [.setSendFile ⟨7, 0, 2⟩, .send [(0, 10)] (.err .EWOULDBLOCK) (.ok 0),
    .send [(1, 11)] (.ok 0) (.ok 0)] (by decide +kernel), by decide +kernel, fun h => ?_⟩
  have := h.fileFirst (by decide +kernel) (1, 11) (by decide +kernel)
  revert this
  decide +kernel

end Cannet.Net
