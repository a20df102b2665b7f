import Cannet.Foundations.Run
import Cannet.Net.Buffer.Checked

/-!
# The buffer as a queue of bytes

Any run of the buffer's operations, from any initial size: the readable bytes are those of a plain
list treated the same way (`BufferOp.queue`), the indices stay in order, and an operation whose own
preconditions hold neither fails an assertion nor reaches outside the vector.

`prepend` may take the reader below the reserve in front; what makes room afterwards asks for that
reserve again, so it moves bytes only from behind it.
-/

namespace Cannet.Net

open Foundations Buffer

variable {β : Type}

/-- The operations of a buffer. `retrieveUntil` has the position its argument points at;
`beginWrite` is the user's own write of `data` to `beginWrite()`. -/
inductive BufferOp (β : Type)
  | append (data : List β)
  | retrieve (len : ℕ)
  | retrieveUntil (pos : ℕ)
  | retrieveAll
  | retrieveAsString (len : ℕ)
  | prepend (data : List β)
  | beginWrite (data : List β)
  | hasWritten (len : ℕ)
  | readFd (r : TcpConnection.ReadRet β)

namespace BufferOp

def exec [Inhabited β] : BufferOp β → BufferAct β Unit
  | append data => Checked.append data
  | retrieve len => Checked.indices (·.retrieve len)
  | retrieveUntil pos => Checked.retrieveUntil pos
  | retrieveAll => Act.modify Buffer.retrieveAll
  | retrieveAsString len => Checked.retrieveAsString len
  | prepend data => Checked.prepend data
  | beginWrite data => do
    let b ← Act.get
    Checked.copyIn b.writerIndex data
  | hasWritten len => Checked.indices (·.hasWritten len)
  | readFd r => Checked.readFd r

/-- What the assertions of an operation ask of its arguments, what a user may write to
`beginWrite()`, and what `readv` returns. -/
def Pre (b : Buffer β) : BufferOp β → Prop
  | append _ | retrieveAll | readFd (.err _) => True
  | retrieve len | retrieveAsString len => len ≤ b.readableBytes
  | retrieveUntil pos => b.readerIndex ≤ pos ∧ pos ≤ b.writerIndex
  | prepend data => data.length ≤ b.prependableBytes
  | beginWrite data => data.length ≤ b.writeableBytes
  | hasWritten len => len ≤ b.writeableBytes
  | readFd (.ok received) => received.length ≤ (Checked.iovecs b).sum

instance (b : Buffer β) : ∀ op : BufferOp β, Decidable (op.Pre b)
  | append _ | retrieveAll | readFd (.err _) => isTrue trivial
  | retrieve _ | retrieveAsString _ | prepend _ | beginWrite _ | hasWritten _ | readFd (.ok _) =>
    inferInstanceAs (Decidable (_ ≤ _))
  | retrieveUntil _ => inferInstanceAs (Decidable (_ ∧ _))

end BufferOp

/-- The bytes behind the readable ones. -/
def Buffer.spare (b : Buffer β) : List β := b.buffer.drop b.writerIndex

/-- What an operation on the buffer `b` makes of the queue `q`. -/
def BufferOp.queue (b : Buffer β) (q : List β) : BufferOp β → List β
  | append data => q ++ data
  | retrieve len | retrieveAsString len => q.drop len
  | retrieveUntil pos => q.drop (pos - b.readerIndex)
  | retrieveAll => []
  | prepend data => data ++ q
  | beginWrite _ | readFd (.err _) => q
  | hasWritten len => q ++ b.spare.take len
  | readFd (.ok received) => q ++ received

/-- The strings it returns. -/
def BufferOp.returned (q : List β) : BufferOp β → List (List β)
  | retrieveAsString len => [q.take len]
  | _ => []

/-! ## One operation -/

namespace Buffer

/-- `hasWritten` makes the bytes behind the readable ones readable. -/
theorem hasWritten_spec {b : Buffer β} (h : b.Wf) {len : ℕ} (hlen : len ≤ b.writeableBytes) :
    ∃ b', b.hasWritten len = some b' ∧ b'.Wf ∧ b'.readable = b.readable ++ b.spare.take len := by
  have hr := h.reader_le
  have hw := h.writer_le
  have hroom : b.writeableBytes = b.buffer.length - b.writerIndex := rfl
  refine ⟨_, if_pos hlen, ⟨?_, ?_, h.prepend_le⟩, ?_⟩
  · simp only
    omega
  · simp only
    omega
  · have hsplit : b.writerIndex + len - b.readerIndex = b.readableBytes + len := by
      rw [readableBytes]
      omega
    have hskip : b.readerIndex + b.readableBytes = b.writerIndex := by
      rw [readableBytes]
      omega
    rw [readable]
    simp only [readableBytes] at hsplit ⊢
    rw [hsplit, List.take_add, List.drop_drop, ← readableBytes, hskip]
    rfl

/-- Writing behind the readable bytes leaves them alone. -/
theorem beginWrite_spec {b : Buffer β} (h : b.Wf) {data : List β}
    (hlen : data.length ≤ b.writeableBytes) :
    Checked.copyIn b.writerIndex data b =
        ⟨.ok (), { b with buffer := copyTo b.writerIndex data b.buffer }, []⟩ ∧
      Wf { b with buffer := copyTo b.writerIndex data b.buffer } ∧
      readable { b with buffer := copyTo b.writerIndex data b.buffer } = b.readable ∧
      (spare { b with buffer := copyTo b.writerIndex data b.buffer }).take data.length = data := by
  have hw := h.writer_le
  have hfit : b.writerIndex + data.length ≤ b.buffer.length := by
    rw [writeableBytes] at hlen
    omega
  refine ⟨Checked.copyIn_apply hfit, ⟨h.reader_le, ?_, ?_⟩, ?_, ?_⟩
  · simp only [length_copyTo hfit]
    exact hw
  · simp only [length_copyTo hfit]
    exact h.prepend_le
  · have htake : (copyTo b.writerIndex data b.buffer).take b.writerIndex =
        b.buffer.take b.writerIndex := by
      rw [copyTo, List.append_assoc, List.take_left' (List.length_take_of_le hw)]
    rw [readable_eq, readable_eq, htake]
  · simp only [spare, copyTo, List.append_assoc]
    rw [List.drop_left' (List.length_take_of_le hw), List.take_left' rfl]

/-- **`prepend` puts the bytes at the front.** -/
theorem prepend_spec {b : Buffer β} (h : b.Wf) {data : List β}
    (hlen : data.length ≤ b.prependableBytes) :
    ∃ b', Checked.prepend data b = ⟨.ok (), b', []⟩ ∧ b'.Wf ∧
      b'.readable = data ++ b.readable := by
  have hr := h.reader_le
  have hw := h.writer_le
  have hreader : data.length ≤ b.readerIndex := hlen
  let b₁ : Buffer β := { b with readerIndex := b.readerIndex - data.length }
  have hfit : b.readerIndex - data.length + data.length ≤ b₁.buffer.length := by
    rw [Nat.sub_add_cancel hreader]
    exact Nat.le_trans hr hw
  refine ⟨{ b₁ with buffer := copyTo (b.readerIndex - data.length) data b.buffer }, ?_,
    ⟨?_, ?_, ?_⟩, ?_⟩
  · rw [Checked.prepend, Act.get_bind, Act.check_pos _ hlen, Act.pure_bind, Act.modify_bind]
    exact Checked.copyIn_apply hfit
  · simp only [b₁]
    omega
  · simp only [b₁, length_copyTo hfit]
    exact hw
  · simp only [b₁, length_copyTo hfit]
    exact h.prepend_le
  · have hcount : b.writerIndex - (b.readerIndex - data.length) =
        data.length + b.readableBytes := by
      rw [readableBytes]
      omega
    have hfront : (b.buffer.take (b.readerIndex - data.length)).length =
        b.readerIndex - data.length := List.length_take_of_le (by omega)
    rw [readable]
    simp only [b₁, readableBytes] at hcount ⊢
    rw [hcount, copyTo, List.append_assoc, List.drop_left' hfront, Nat.sub_add_cancel hreader,
      List.take_length_add_append]
    rfl

end Buffer

/-- What one operation does: it returns, keeps the buffer well-formed and acts on the readable
bytes as on a queue. -/
structure BufferOp.Done [Inhabited β] (op : BufferOp β) (b : Buffer β) : Prop where
  ok : (op.exec b).val = .ok ()
  wf : (op.exec b).state.Wf
  readable : (op.exec b).state.readable = op.queue b b.readable
  returned : (op.exec b).trace = op.returned b.readable
  failed : ∀ e, op = .readFd (.err e) → (op.exec b).state = b
  written : ∀ data, op = .beginWrite data → (op.exec b).state.spare.take data.length = data

/-- An operation that ends as a plain function of the buffer does. -/
theorem BufferOp.Done.of_apply [Inhabited β] {op : BufferOp β} {b b' : Buffer β}
    (h : op.exec b = ⟨.ok (), b', op.returned b.readable⟩) (hwf : b'.Wf)
    (hread : b'.readable = op.queue b b.readable)
    (hfailed : ∀ e, op = .readFd (.err e) → b' = b)
    (hwritten : ∀ data, op = .beginWrite data → b'.spare.take data.length = data) :
    op.Done b := by
  constructor <;> rw [h] <;> first | rfl | assumption

theorem BufferOp.Done.apply [Inhabited β] {op : BufferOp β} {b : Buffer β} (h : op.Done b) :
    op.exec b = ⟨.ok (), (op.exec b).state, op.returned b.readable⟩ := by
  rw [← h.ok, ← h.returned]

/-- **Every operation whose preconditions hold** acts on the queue of bytes. -/
theorem BufferOp.done [Inhabited β] {b : Buffer β} (h : b.Wf) {op : BufferOp β} (hpre : op.Pre b) :
    op.Done b := by
  have hlength := h.length_readable
  cases op with
  | append data =>
    obtain ⟨b', hb', hc⟩ := Checked.append_checked h data
    obtain ⟨b₁, hb₁, hwf, hread⟩ := append_spec h data
    obtain rfl : b' = b₁ := Option.some.inj (hb'.symm.trans hb₁)
    refine .of_apply hc hwf hread ?_ ?_ <;> intro _ hop <;> cases hop
  | retrieve len =>
    have hle : len ≤ b.readable.length := by rwa [hlength]
    obtain ⟨b', hb', hwf, hread⟩ := retrieve_spec h hle
    refine .of_apply (Checked.indices_apply hb') hwf hread ?_ ?_ <;> intro _ hop <;> cases hop
  | retrieveUntil pos =>
    obtain ⟨hle, hge⟩ := hpre
    have hlen : pos - b.readerIndex ≤ b.readable.length := by
      rw [hlength, readableBytes]
      omega
    obtain ⟨b', hb', hwf, hread⟩ := retrieve_spec h hlen
    have hexec : (retrieveUntil pos).exec b = ⟨.ok (), b', []⟩ := by
      rw [exec, Checked.retrieveUntil, Act.get_bind, Act.check_pos _ hle, Act.pure_bind,
        Act.check_pos _ hge, Act.pure_bind, Checked.indices_apply hb']
    refine .of_apply hexec hwf hread ?_ ?_ <;> intro _ hop <;> cases hop
  | retrieveAll =>
    refine .of_apply rfl h.retrieveAll (readable_retrieveAll b) ?_ ?_ <;> intro _ hop <;> cases hop
  | retrieveAsString len =>
    have hle : len ≤ b.readableBytes := hpre
    have hout : b.readerIndex + len ≤ b.buffer.length := by
      have hr := h.reader_le
      have hw := h.writer_le
      rw [readableBytes] at hle
      omega
    have hresult : (b.buffer.drop b.readerIndex).take len = b.readable.take len := by
      rw [readable, List.take_take, Nat.min_eq_left hle]
    have hlen : len ≤ b.readable.length := by rwa [hlength]
    obtain ⟨b', hb', hwf, hread⟩ := retrieve_spec h hlen
    have hexec : (retrieveAsString len).exec b = ⟨.ok (), b', [b.readable.take len]⟩ := by
      rw [exec, Checked.retrieveAsString, Act.get_bind, Act.check_pos _ hle, Act.pure_bind,
        Act.bind_ok (Checked.copyOut_apply hout), Act.bind_ok (Checked.indices_apply hb'), hresult]
      rfl
    refine .of_apply hexec hwf hread ?_ ?_ <;> intro _ hop <;> cases hop
  | prepend data =>
    obtain ⟨b', hb', hwf, hread⟩ := prepend_spec h hpre
    refine .of_apply hb' hwf hread ?_ ?_ <;> intro _ hop <;> cases hop
  | beginWrite data =>
    obtain ⟨hb', hwf, hread, hspare⟩ := beginWrite_spec h hpre
    refine .of_apply hb' hwf hread ?_ ?_
    · intro _ hop
      cases hop
    · rintro _ ⟨⟩
      exact hspare
  | hasWritten len =>
    obtain ⟨b', hb', hwf, hread⟩ := hasWritten_spec h hpre
    refine .of_apply (Checked.indices_apply hb') hwf hread ?_ ?_ <;> intro _ hop <;> cases hop
  | readFd r =>
    cases r with
    | err e =>
      refine .of_apply rfl h rfl (fun _ _ => rfl) ?_
      intro _ hop
      cases hop
    | ok received =>
      obtain ⟨b', hb', hc⟩ := Checked.readFd_checked h hpre
      obtain ⟨b₁, hb₁, hwf, hread⟩ := readFd_spec h received
      obtain rfl : b' = b₁ := Option.some.inj (hb'.symm.trans hb₁)
      refine .of_apply hc hwf hread ?_ ?_ <;> intro _ hop <;> cases hop

/-! ## Any run -/

abbrev BufferCall (β : Type) := Call (BufferOp β) Abort (List β) (Buffer β)

/-- The queue after the calls, from an empty one. -/
def queueOf (calls : List (BufferCall β)) : List β :=
  calls.foldl (fun q call => call.input.queue call.before q) []

@[simp] theorem queueOf_concat (calls : List (BufferCall β)) (call : BufferCall β) :
    queueOf (calls ++ [call]) = call.input.queue call.before (queueOf calls) := by
  simp [queueOf]

/-- A run keeps the buffer well-formed and its readable bytes the queue. -/
theorem queueOf_of_run [Inhabited β] {initialSize : ℕ} {calls : List (BufferCall β)} {b : Buffer β}
    (h : Run BufferOp.exec (fun _ call => call.input.Pre call.before) (Buffer.init initialSize)
      calls b) :
    b.Wf ∧ b.readable = queueOf calls ∧ ∀ call ∈ calls, call.input.Done call.before := by
  refine h.invariant (I := fun calls b => b.Wf ∧ b.readable = queueOf calls ∧
    ∀ call ∈ calls, call.input.Done call.before) ⟨init_wf _, readable_init _, nofun⟩ ?_
  rintro calls b op ⟨hwf, hread, hcalls⟩ hpre -
  have hdone : op.Done b := BufferOp.done hwf hpre
  refine ⟨hdone.wf, ?_, fun call hcall => ?_⟩
  · rw [queueOf_concat, hdone.readable, hread]
    rfl
  · rcases List.mem_append.1 hcall with hcall | hcall
    · exact hcalls call hcall
    · rw [List.mem_singleton.1 hcall]
      exact hdone

end Cannet.Net
