import Cannet.Foundations.Ranges
import Cannet.Net.Connection.Runs

/-!
# The transfer of one attached file

A file is attached to a message and goes out after it, in as many `sendfile`s as the kernel makes
of it: the first in `sendInLoop` or in `handleWrite`, the others in `handleWrite`. The kernel
advances the offset it is given a pointer to, and the code adds the count to it once more, so
that each `sendfile` starts at twice the sum of the counts before it (`Transferring`). The
transfer is exact as long as that is the sum itself (`transfer_exact_iff`).
-/

namespace Cannet.Net

open Foundations TcpConnection

variable {β : Type}

/-- The piece of the file a `sendfile` handed to the kernel. -/
def Effect.transfer : Effect β → List (ℕ × ℕ)
  | .sendfile _ _ offset _ r => [(offset, r.count)]
  | _ => []

/-- The pieces handed to the kernel. -/
def transfers (es : List (Effect β)) : List (ℕ × ℕ) := es.flatMap Effect.transfer

/-- The counts the kernel answered to `sendfile`. -/
def sendfileCounts (es : List (Effect β)) : List ℕ := (transfers es).map Prod.snd

/-- **A file of length `L` is sent exactly**: the pieces are consecutive from 0, what is sent and
what is left make up the file, and a finished transfer is every position once. -/
structure TransferExact (L : ℕ) (es : List (Effect β)) (c : TcpConnection β) : Prop where
  starts : StartsAt id (transfers es)
  left : total (transfers es) + c.fileLeft = L
  complete : c.fileLeft = 0 → units (transfers es) = List.range L

@[simp] theorem transfers_nil : transfers ([] : List (Effect β)) = [] := rfl

@[simp] theorem transfers_cons (e : Effect β) (es : List (Effect β)) :
    transfers (e :: es) = e.transfer ++ transfers es := List.flatMap_cons

@[simp] theorem transfers_append (es es' : List (Effect β)) :
    transfers (es ++ es') = transfers es ++ transfers es' := List.flatMap_append

section Quiet

variable (ch : Channel) (c : TcpConnection β)

@[simp] theorem transfers_writingOnCalls :
    transfers (ch.writingOnCalls : List (Effect β)) = [] := by
  unfold Channel.writingOnCalls
  split <;> rfl

@[simp] theorem transfers_writingOffCalls :
    transfers (ch.writingOffCalls : List (Effect β)) = [] := rfl

@[simp] theorem transfers_completion : transfers c.completion = [] := by
  unfold completion
  split <;> rfl

@[simp] theorem transfers_sentCalls : transfers c.sentCalls = [] := by
  unfold sentCalls
  split <;> simp [Effect.transfer]

theorem TcpConnection.Direct.transfers_eq {w : SysRet} {data : List β} {c : TcpConnection β}
    {d : Written} {es : List (Effect β)} (hd : Direct w data c d es) : transfers es = [] := by
  cases hd with
  | skipped _ => rfl
  | wrote n _ _ _ => split <;> simp [Effect.transfer]
  | failed e _ _ _ => rfl

end Quiet

theorem not_transfer_of_transfers_eq_nil {es : List (Effect β)} (h : transfers es = []) :
    ∀ e ∈ es, ¬e.transfer ≠ [] := by
  intro e he
  exact not_not.2 (List.flatMap_eq_nil_iff.1 h e he)

/-- Effects that move no byte of a file hold no `sendfile`. -/
theorem no_sendfile_of_transfers_eq_nil {es pre post : List (Effect β)} {fd inFd : ℤ}
    {offset count : ℕ} {r : SysRet} {P : Prop} (h : transfers es = [])
    (heq : es = pre ++ .sendfile fd inFd offset count r :: post) : P := by
  rw [heq] at h
  simp [Effect.transfer] at h

/-- The `sendfile` of the file branch is the only one. -/
theorem TcpConnection.FileOutcome.trace_eq {f : SysRet} {file : SendFileUtil}
    {c : TcpConnection β} {o : Outcome Abort (Effect β) (TcpConnection β) Unit}
    (ho : FileOutcome f file c o) :
    ∃ rest, o.trace = sendfileCall f file c :: rest ∧ transfers rest = [] := by
  cases ho with
  | failed => exact ⟨_, rfl, rfl⟩
  | blocked => exact ⟨_, rfl, transfers_writingOnCalls _⟩
  | short => exact ⟨_, rfl, transfers_writingOnCalls _⟩
  | sent => exact ⟨_, rfl, rfl⟩
  | released => exact ⟨_, rfl, rfl⟩

theorem count_le_of_legal {f : SysRet} {file : SendFileUtil} {c : TcpConnection β}
    (h : (sendfileCall f file c).Legal) : f.count ≤ file.sendLen := by
  cases f with
  | ok n => exact h
  | err e => exact Nat.zero_le _

/-- The invariant of a transfer: each piece starts at twice the length before it. -/
structure Transferring (L : ℕ) (es : List (Effect β)) (c : TcpConnection β) : Prop where
  wf : c.outputBuffer.Wf
  live : c.state = .kConnected ∨ c.state = .kDisconnecting
  starts : StartsAt (2 * ·) (transfers es)
  offset : ∀ file, c.sendFile = some file → file.offset = 2 * total (transfers es)
  left : total (transfers es) + c.fileLeft = L

namespace Transferring

variable {L : ℕ} {es es' : List (Effect β)} {c c' : TcpConnection β}

/-- Effects that move no byte of the file. -/
theorem quiet (h : Transferring L es c) (hes : transfers es' = [])
    (hfile : c'.sendFile = c.sendFile) (hwf : c'.outputBuffer.Wf) (hstate : c'.state = c.state) :
    Transferring L (es ++ es') c' where
  wf := hwf
  live := by rw [hstate]; exact h.live
  starts := by simpa [hes] using h.starts
  offset := by simpa [hes, hfile] using h.offset
  left := by simpa [hes, fileLeft, hfile] using h.left

/-- A `sendfile` that moves `n` bytes; the file may be released when it is complete. -/
theorem sent (h : Transferring L es c) {file : SendFileUtil} (hfile : c.sendFile = some file)
    {n : ℕ} (hn : n ≤ file.sendLen) (hes : transfers es' = [(file.offset, n)])
    (hfile' : c'.sendFile = some (file.sent n) ∨ c'.sendFile = none ∧ file.sendLen = n)
    (hwf : c'.outputBuffer.Wf) (hstate : c'.state = c.state) :
    Transferring L (es ++ es') c' := by
  have hoffset := h.offset file hfile
  have hleft : total (transfers es) + file.sendLen = L := by
    simpa [fileLeft, hfile] using h.left
  refine ⟨hwf, by rw [hstate]; exact h.live, ?_, ?_, ?_⟩
  · rw [transfers_append, hes]
    exact startsAt_concat.2 ⟨h.starts, hoffset⟩
  · intro file' heq
    rcases hfile' with hsome | ⟨hnone, -⟩
    · obtain rfl : file.sent n = file' := by
        rw [hsome] at heq
        exact Option.some.inj heq
      simp only [SendFileUtil.sent, transfers_append, hes, total_append, total_singleton]
      omega
    · rw [hnone] at heq
      contradiction
  · rw [transfers_append, hes, total_append, total_singleton, fileLeft]
    rcases hfile' with hsome | ⟨hnone, hall⟩
    · rw [hsome]
      simp only [SendFileUtil.sent]
      omega
    · rw [hnone]
      simp only
      omega

/-- The file branch of `sendInLoop`. -/
theorem file (h : Transferring L es c) {f : SysRet} {file : SendFileUtil}
    (hfile : c.sendFile = some file) (hf : f.count ≤ file.sendLen)
    {o : Outcome Abort (Effect β) (TcpConnection β) Unit} (ho : FileOutcome f file c o) :
    Transferring L (es ++ o.trace) o.state := by
  cases ho with
  | failed e he _ =>
    subst he
    exact h.sent hfile (Nat.zero_le _) rfl (.inl hfile) h.wf rfl
  | blocked e he _ _ =>
    subst he
    exact h.sent hfile (Nat.zero_le _) (by simp [sendfileCall, Effect.transfer, SysRet.count])
      (.inl hfile) h.wf rfl
  | short n hn hlt =>
    subst hn
    exact h.sent hfile hf (by simp [sendfileCall, Effect.transfer, SysRet.count]) (.inl rfl) h.wf
      rfl
  | sent n hn hge _ =>
    subst hn
    exact h.sent hfile hf rfl (.inl rfl) h.wf rfl
  | released n hn hge _ =>
    subst hn
    exact h.sent hfile hf rfl (.inr ⟨rfl, Nat.le_antisymm hge hf⟩) h.wf rfl

/-- A message sent behind whatever is buffered, with the file after it. -/
theorem send [Inhabited β] (h : Transferring L es c) {message : List β} {w f : SysRet}
    (hlegal : ∀ e ∈ (send true w f message c).trace, e.Legal) :
    Transferring L (es ++ (send true w f message c).trace) (send true w f message c).state := by
  rw [send_live w f message h.live] at hlegal ⊢
  have ho := sendInLoop_outcome w f message h.wf
  generalize sendInLoop w f message message.length c = o at ho hlegal
  cases ho with
  | disconnected _ => exact h.quiet rfl rfl h.wf rfl
  | buffered d es' hd _ _ b hb _ =>
    exact h.quiet (by simp [hd.transfers_eq, Effect.transfer]) rfl hb rfl
  | finished d es' hd _ _ => exact h.quiet (by simp [hd.transfers_eq, Effect.transfer]) rfl h.wf rfl
  | file d es' hd _ file hfile o ho =>
    have hf := count_le_of_legal (hlegal _ (List.mem_append_right _ ho.sendfileCall_mem))
    have hquiet : transfers (.sendInLoop message message.length :: es') = [] := by
      simp [hd.transfers_eq, Effect.transfer]
    have := (h.quiet hquiet rfl h.wf rfl).file hfile hf ho
    rwa [List.append_assoc] at this

/-- A writable event. -/
theorem handleWrite (h : Transferring L es c) {r : SysRet}
    (hlegal : ∀ e ∈ (handleWrite r c).trace, e.Legal) :
    Transferring L (es ++ (handleWrite r c).trace) (handleWrite r c).state := by
  have ho := handleWrite_outcome h.wf hlegal
  generalize TcpConnection.handleWrite r c = o at ho hlegal
  cases ho with
  | idle _ => exact h.quiet rfl rfl h.wf rfl
  | nothing _ _ _ => exact h.quiet rfl rfl h.wf rfl
  | failed _ _ _ => exact h.quiet rfl rfl h.wf rfl
  | short _ _ _ _ _ b hb _ => exact h.quiet rfl rfl hb rfl
  | drained _ _ _ b hb _ => exact h.quiet (by simp [Effect.transfer]) rfl hb rfl
  | fileFailed _ _ file hfile hr =>
    exact h.sent hfile (Nat.zero_le _) (by simp [sendfileCall, Effect.transfer, hr])
      (.inl hfile) h.wf rfl
  | fileShort _ _ file hfile n hr _ hn =>
    subst hr
    exact h.sent hfile (Nat.le_of_lt hn) rfl (.inl rfl) h.wf rfl
  | fileSent _ _ file hfile n hr _ hn =>
    subst hr
    have hle : n ≤ file.sendLen := hlegal _ List.mem_cons_self
    exact h.sent hfile hle (by simp [sendfileCall, Effect.transfer, SysRet.count])
      (.inr ⟨rfl, Nat.le_antisymm hn hle⟩) h.wf rfl

/-- **The transfer is exact** as long as every `sendfile` but the last moved nothing. -/
theorem exact_iff (h : Transferring L es c) :
    TransferExact L es c ↔ ∀ n ∈ (sendfileCounts es).dropLast, n = 0 := by
  have hiff : (∀ n ∈ (sendfileCounts es).dropLast, n = 0) ↔ StartsAt id (transfers es) := by
    rw [startsAt_id_iff h.starts, sendfileCounts, ← List.map_dropLast, List.forall_mem_map]
  rw [hiff]
  refine ⟨fun hexact => hexact.starts, fun hstarts => ⟨hstarts, h.left, fun hdone => ?_⟩⟩
  rw [units_eq_range hstarts]
  have := h.left
  rw [hdone, Nat.add_zero] at this
  rw [this]

end Transferring

/-! ## Runs -/

/-- The calls of one transfer: a message with the file behind it, then writable events. -/
def OneTransfer (calls : List (ConnCall β)) (call : ConnCall β) : Prop :=
  Answered call ∧
    match call.input with
    | .send .. => calls.length = 0
    | .handleWrite _ => calls.length ≠ 0
    | _ => False

instance (calls : List (ConnCall β)) (call : ConnCall β) : Decidable (OneTransfer calls call) :=
  match call with
  | ⟨.send .., _, _⟩ => inferInstanceAs (Decidable (Answered _ ∧ _ = _))
  | ⟨.handleWrite _, _, _⟩ => inferInstanceAs (Decidable (Answered _ ∧ _ ≠ _))
  | ⟨.setSendFile _, _, _⟩ | ⟨.shutdown, _, _⟩ | ⟨.startRead, _, _⟩ | ⟨.stopRead, _, _⟩ =>
    inferInstanceAs (Decidable (Answered _ ∧ False))

/-- A connection with a file of length `L` attached, at its beginning, as `setSendFile` leaves
it. -/
def withFile (inFd : ℤ) (L : ℕ) (c : TcpConnection β) : TcpConnection β :=
  { c with sendFile := some ⟨inFd, 0, L⟩ }

theorem Established.transferring {c : TcpConnection β} (h : Established c) (inFd : ℤ) (L : ℕ) :
    Transferring L [] (withFile inFd L c) where
  wf := h.wf
  live := .inl h.state_eq
  starts := startsAt_nil _
  offset := by
    rintro file heq
    obtain rfl := Option.some.inj heq
    rfl
  left := Nat.zero_add L

variable [Inhabited β] {L : ℕ} {c : TcpConnection β} {calls : List (ConnCall β)}

theorem Transferring.step (h : Transferring L (traceOf calls) c) {op : Op β}
    (hg : OneTransfer calls (Call.make exec op c)) :
    Transferring L (traceOf calls ++ (exec op c).trace) (exec op c).state := by
  obtain ⟨hanswered, hop⟩ := hg
  cases op with
  | send message w f => exact h.send hanswered
  | handleWrite r => exact h.handleWrite hanswered
  | shutdown | startRead | stopRead | setSendFile file => exact hop.elim

theorem transferring_of_run {c₀ : TcpConnection β} (h₀ : Established c₀) {inFd : ℤ}
    (h : Run exec OneTransfer (withFile inFd L c₀) calls c) : Transferring L (traceOf calls) c := by
  refine h.invariant (I := fun calls c => Transferring L (traceOf calls) c)
    (h₀.transferring inFd L) fun calls c op hI hg _ => ?_
  have := hI.step hg
  rwa [traceOf_append, traceOf_singleton]

/-- **When the transfer of a file is exact.** After every call of a run, returned or not, the
pieces handed to the kernel are exact if and only if every `sendfile` before the last one moved
nothing: the file went out in a single piece, or its second piece has not been asked for. -/
theorem transfer_exact_iff {c₀ : TcpConnection β} (h₀ : Established c₀) {inFd : ℤ}
    (h : Run exec OneTransfer (withFile inFd L c₀) calls c) {op : Op β}
    (hg : OneTransfer calls (Call.make exec op c)) :
    TransferExact L (traceOf calls ++ (exec op c).trace) (exec op c).state ↔
      ∀ n ∈ (sendfileCounts (traceOf calls ++ (exec op c).trace)).dropLast, n = 0 :=
  ((transferring_of_run h₀ h).step hg).exact_iff


/-- A file of four bytes whose first `sendfile` moves one of them, at the next writable event. -/
theorem transfer_exact_iff_of_short_sendfile :
    ∃ (calls : List (ConnCall ℕ)) (c : TcpConnection ℕ),
      Run exec OneTransfer (withFile 7 4 (opened 5)) calls c ∧
        (TransferExact 4 (traceOf calls ++ (exec (.handleWrite (.ok 1)) c).trace)
            (exec (.handleWrite (.ok 1)) c).state ↔
          ∀ n ∈ (sendfileCounts
            (traceOf calls ++ (exec (.handleWrite (.ok 1)) c).trace)).dropLast, n = 0) := by
  have hrun : Run exec OneTransfer (withFile 7 4 (opened 5 : TcpConnection ℕ)) _ _ :=
    run_replay [.send [1] (.ok 1) (.ok 1)] (by decide +kernel)
  exact ⟨_, _, hrun, transfer_exact_iff (established_opened 5) hrun (by decide +kernel)⟩

/-- The second `sendfile` of that file starts at 2, not at 1. -/
theorem transfer_skips_a_byte :
    ∃ (calls : List (ConnCall ℕ)) (c : TcpConnection ℕ),
      Run exec OneTransfer (withFile 7 4 (opened 5)) calls c ∧
        ¬TransferExact 4 (traceOf calls) c := by
  refine ⟨_, _, run_replay [.send [1] (.ok 1) (.ok 1), .handleWrite (.ok 1)] (by decide +kernel),
    fun h => ?_⟩
  have := h.starts 1 (by decide +kernel)
  revert this
  decide +kernel

end Cannet.Net
