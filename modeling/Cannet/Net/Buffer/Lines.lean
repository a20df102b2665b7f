import Cannet.Foundations.Bytes
import Cannet.Foundations.Loop
import Cannet.Foundations.Split
import Cannet.Net.Buffer.Queue

/-!
# Lines of a stream

`findCRLF` of `net/Buffer.h`, and the loop of its users: while there is a line end at `p`, the bytes
before `p` are taken as a line and `retrieveUntil(p + 2)` skips the line end.

The bytes come in chunks, by `append` or by `readFd`; the lines are taken after each. Lines and
left-over bytes are the cut of the whole stream at its line ends (`lines_of_chunks`), whatever the
chunks.
-/

namespace Cannet.Net

open Foundations Buffer

/-- `"\\r\\n"`. -/
def kCRLF : List Byte := [13, 10]

namespace Buffer.Checked

/-- The position of the first line end. `std::search` returns the end of its range when there is
none. -/
def findCRLF : BufferAct Byte (Option ℕ) := do
  let b ← Act.get
  let bytes ← copyOut b.readerIndex b.readableBytes
  let crlf := b.readerIndex + search kCRLF bytes
  pure (if crlf = b.writerIndex then none else some crlf)

/-- One round of the loop; whether it was the last. -/
def takeLine : BufferAct Byte Bool := do
  match ← findCRLF with
  | none => pure true
  | some p =>
    let b ← Act.get
    retrieveAsString (p - b.readerIndex)
    retrieveUntil (p + 2)
    pure false

def takeLines : ℕ → BufferAct Byte Bool := Act.loop takeLine

/-! ## One round -/

variable {b : Buffer Byte} {line rest : List Byte}

theorem findCRLF_apply (h : b.Wf) :
    findCRLF b = ⟨.ok (if b.readerIndex + search kCRLF b.readable = b.writerIndex then none
      else some (b.readerIndex + search kCRLF b.readable)), b, []⟩ := by
  have hout : b.readerIndex + b.readableBytes ≤ b.buffer.length := by
    have hr := h.reader_le
    have hw := h.writer_le
    rw [readableBytes]
    omega
  rw [findCRLF, Act.get_bind, Act.bind_ok (copyOut_apply hout)]
  rfl

/-- Without a line end, `findCRLF` is null. -/
theorem findCRLF_none (h : b.Wf) (hfree : search kCRLF b.readable = b.readable.length) :
    findCRLF b = ⟨.ok none, b, []⟩ := by
  have hend : b.readerIndex + search kCRLF b.readable = b.writerIndex := by
    have hr := h.reader_le
    rw [hfree, h.length_readable, readableBytes]
    omega
  rw [findCRLF_apply h, if_pos hend]

/-- With one, it is where the line ends. -/
theorem findCRLF_some (h : b.Wf) (hat : search kCRLF b.readable = line.length)
    (hlt : line.length < b.readable.length) :
    findCRLF b = ⟨.ok (some (b.readerIndex + line.length)), b, []⟩ := by
  have hend : b.readerIndex + search kCRLF b.readable ≠ b.writerIndex := by
    rw [h.length_readable, readableBytes] at hlt
    omega
  rw [findCRLF_apply h, if_neg hend, hat]

/-- The bytes before a position that is not the end, taken as a string. -/
theorem retrieveAsString_apply {len : ℕ} (h : b.Wf) (hlt : len < b.readable.length) :
    retrieveAsString len b =
      ⟨.ok (), { b with readerIndex := b.readerIndex + len }, [b.readable.take len]⟩ := by
  rw [h.length_readable] at hlt
  have hle : len ≤ b.readableBytes := by omega
  have hout : b.readerIndex + len ≤ b.buffer.length := by
    have hr := h.reader_le
    have hw := h.writer_le
    rw [readableBytes] at hlt
    omega
  have hresult : (b.buffer.drop b.readerIndex).take len = b.readable.take len := by
    rw [readable, List.take_take, Nat.min_eq_left hle]
  have hretrieve : b.retrieve len = some { b with readerIndex := b.readerIndex + len } := by
    rw [retrieve, if_pos hle, if_pos hlt]
  rw [retrieveAsString, Act.get_bind, Act.check_pos _ hle, Act.pure_bind,
    Act.bind_ok (copyOut_apply hout), Act.bind_ok (indices_apply hretrieve), hresult]
  rfl

/-- A round without a line end is the last. -/
theorem takeLine_last (h : b.Wf) (hfree : search kCRLF b.readable = b.readable.length) :
    takeLine b = ⟨.ok true, b, []⟩ := by
  rw [takeLine, Act.bind_ok (findCRLF_none h hfree)]
  rfl

/-- **One line**: it is returned, and what is behind its end stays. -/
theorem takeLine_next (h : b.Wf) (hat : search kCRLF b.readable = line.length)
    (hread : b.readable = line ++ (kCRLF ++ rest)) :
    ∃ b', takeLine b = ⟨.ok false, b', [line]⟩ ∧ b'.Wf ∧ b'.readable = rest := by
  have hlen : b.readable.length = line.length + (2 + rest.length) := by
    rw [hread, List.length_append, List.length_append]
    rfl
  have hlt : line.length < b.readable.length := by omega
  have hline := retrieveAsString_apply h hlt
  rw [hread, List.take_left' rfl] at hline
  let b₁ : Buffer Byte := { b with readerIndex := b.readerIndex + line.length }
  have hcount : b.readerIndex + (line.length + (2 + rest.length)) = b.writerIndex := by
    have hr := h.reader_le
    rw [← hlen, h.length_readable, readableBytes]
    omega
  have hwf₁ : b₁.Wf := by
    refine ⟨?_, h.writer_le, h.prepend_le⟩
    show b.readerIndex + line.length ≤ b.writerIndex
    omega
  have hread₁ : b₁.readable = kCRLF ++ rest := by
    rw [readable_eq]
    show (b.buffer.take b.writerIndex).drop (b.readerIndex + line.length) = _
    rw [← List.drop_drop, ← readable_eq, hread, List.drop_left' rfl]
  have hpre : (BufferOp.retrieveUntil (b.readerIndex + line.length + 2)).Pre b₁ := by
    constructor
    · exact Nat.le_add_right _ _
    · show b.readerIndex + line.length + 2 ≤ b.writerIndex
      omega
  have hdone := BufferOp.done hwf₁ hpre
  have huntil : retrieveUntil (b.readerIndex + line.length + 2) b₁ = ⟨.ok (), _, []⟩ :=
    hdone.apply
  have hpos : b.readerIndex + line.length - b.readerIndex = line.length :=
    Nat.add_sub_cancel_left _ _
  refine ⟨_, ?_, hdone.wf, ?_⟩
  · rw [takeLine, Act.bind_ok (findCRLF_some h hat hlt), Outcome.after_nil]
    show (Act.get >>= _) b = _
    rw [Act.get_bind, hpos, Act.bind_ok hline, Act.bind_ok huntil]
    rfl
  · have hskip : b.readerIndex + line.length + 2 - b₁.readerIndex = 2 :=
      Nat.add_sub_cancel_left _ _
    rw [hdone.readable, BufferOp.queue, hskip, hread₁]
    rfl

/-- **The loop ends**, with the readable bytes cut at their line ends: each round takes at least the
two bytes of a line end. -/
theorem takeLines_spec {fuel : ℕ} (h : b.Wf) (hfuel : b.readable.length < fuel) :
    ∃ b' lines, takeLines fuel b = ⟨.ok true, b', lines⟩ ∧ b'.Wf ∧
      Splits kCRLF b.readable lines b'.readable := by
  -- the lines taken so far are those in front of the bytes that are left
  let J : List (List Byte) → Buffer Byte → Prop := fun taken b' => b'.Wf ∧
    ∀ lines left, Splits kCRLF b'.readable lines left →
      Splits kCRLF b.readable (taken ++ lines) left
  refine Act.loop_ends (J := J) (Q := fun lines b' => b'.Wf ∧
    Splits kCRLF b.readable lines b'.readable) (fun b' => b'.readable.length) ?_
    ⟨h, fun _ _ hsplits => hsplits⟩ hfuel
  rintro taken b' ⟨hwf, hcut⟩
  rcases search_spec (by decide : kCRLF ≠ []) b'.readable with
    ⟨hend, hfree⟩ | ⟨line, rest, hat, -, hfirst⟩
  · exact .inl ⟨b', [], takeLine_last hwf hend, hwf, hcut [] _ (.done hfree)⟩
  · obtain ⟨b'', htake, hwf'', hread''⟩ := takeLine_next hwf hat hfirst.eq
    refine .inr ⟨b'', [line], htake, ⟨hwf'', fun lines left hsplits => ?_⟩, ?_⟩
    · rw [hread''] at hsplits
      rw [List.append_assoc]
      exact hcut _ _ (.line hfirst hsplits)
    · have hlen := congrArg List.length hfirst.eq
      rw [List.length_append, List.length_append] at hlen
      have hsep : kCRLF.length = 2 := rfl
      simp only [hread'']
      omega

end Buffer.Checked

/-! ## Chunk by chunk -/

/-- How a chunk comes: by `append`, or as what `readv` receives in `readFd`. -/
inductive Chunk
  | append (data : List Byte)
  | readFd (received : List Byte)

namespace Chunk

def bytes : Chunk → List Byte
  | append data | readFd data => data

def op : Chunk → BufferOp Byte
  | append data => .append data
  | readFd received => .readFd (.ok received)

/-- A chunk arrives and the lines are taken. The rounds allowed are one more than there are readable
bytes; running out of them would count as a failure. -/
def exec (c : Chunk) : BufferAct Byte Unit := do
  c.op.exec
  let b ← Act.get
  let ended ← Checked.takeLines (b.readableBytes + 1)
  Act.check .assertion (ended = true)

/-- What `readv` can return. -/
def Pre (b : Buffer Byte) (c : Chunk) : Prop := c.op.Pre b

instance (b : Buffer Byte) (c : Chunk) : Decidable (c.Pre b) :=
  inferInstanceAs (Decidable (c.op.Pre b))

end Chunk

/-- **One chunk**: left-over bytes and chunk are cut together. -/
theorem Chunk.exec_spec {b : Buffer Byte} (h : b.Wf) {c : Chunk} (hpre : c.Pre b) :
    ∃ b' lines, c.exec b = ⟨.ok (), b', lines⟩ ∧ b'.Wf ∧
      Splits kCRLF (b.readable ++ c.bytes) lines b'.readable := by
  have hdone : c.op.Done b := BufferOp.done h hpre
  have hread : (c.op.exec b).state.readable = b.readable ++ c.bytes := by
    rw [hdone.readable]
    cases c <;> rfl
  have htrace : c.op.returned b.readable = [] := by cases c <;> rfl
  have happly := hdone.apply
  rw [htrace] at happly
  have hfuel : (c.op.exec b).state.readable.length <
      (c.op.exec b).state.readableBytes + 1 := by
    rw [hdone.wf.length_readable]
    omega
  obtain ⟨b', lines, htake, hwf', hsplits⟩ := Checked.takeLines_spec hdone.wf hfuel
  rw [hread] at hsplits
  refine ⟨b', lines, ?_, hwf', hsplits⟩
  rw [Chunk.exec, Act.bind_ok happly, Outcome.after_nil, Act.get_bind, Act.bind_ok htake,
    Act.check_pos _ rfl, Act.pure_apply, Outcome.after_mk, List.append_nil]

abbrev ChunkCall := Call Chunk Abort (List Byte) (Buffer Byte)

/-- The bytes that have come. -/
def fedOf (calls : List ChunkCall) : List Byte := calls.flatMap (·.input.bytes)

/-- A buffer that some run of the operations leaves empty. -/
def EmptyBuffer (b : Buffer Byte) : Prop :=
  b.readable = [] ∧ ∃ initialSize calls,
    Run BufferOp.exec (fun _ call => call.input.Pre call.before) (Buffer.init initialSize) calls b

theorem EmptyBuffer.wf {b : Buffer Byte} (h : EmptyBuffer b) : b.Wf := by
  obtain ⟨-, _, _, hrun⟩ := h
  exact (queueOf_of_run hrun).1

/-- A run of chunks cuts what has come. -/
theorem splits_of_run {b₀ b : Buffer Byte} {calls : List ChunkCall} (h₀ : EmptyBuffer b₀)
    (h : Run Chunk.exec (fun _ call => call.input.Pre call.before) b₀ calls b) :
    b.Wf ∧ Splits kCRLF (fedOf calls) (traceOf calls) b.readable := by
  refine h.invariant (I := fun calls b => b.Wf ∧
    Splits kCRLF (fedOf calls) (traceOf calls) b.readable) ⟨h₀.wf, ?_⟩ ?_
  · rw [h₀.1]
    refine .done fun pre hpre => ?_
    exact absurd (List.append_eq_nil_iff.1 (List.prefix_nil.1 hpre)).2 (by decide)
  · rintro calls b c ⟨hwf, hsplits⟩ hpre -
    obtain ⟨b', lines, hexec, hwf', hsplits'⟩ := Chunk.exec_spec (c := c) hwf hpre
    have hfed : fedOf (calls ++ [Call.make Chunk.exec c b]) = fedOf calls ++ c.bytes := by
      simp [fedOf]
    rw [hfed, traceOf_append, traceOf_singleton, Call.make_outcome, hexec]
    exact ⟨hwf', hsplits.append hsplits'⟩

/-- **Lines do not depend on the chunks.** After any chunks fed into an empty buffer the lines taken
and the bytes left over are the cut of all the bytes at their line ends; no chunk makes a call fail
or the loop go on for ever; and the same bytes in one piece, in any empty buffer, give the same
lines and the same left-over bytes. -/
theorem lines_of_chunks {b₀ b : Buffer Byte} {calls : List ChunkCall} (h₀ : EmptyBuffer b₀)
    (h : Run Chunk.exec (fun _ call => call.input.Pre call.before) b₀ calls b) :
    Splits kCRLF (fedOf calls) (traceOf calls) b.readable ∧
      (∀ c : Chunk, c.Pre b → (c.exec b).val = .ok ()) ∧
      ∀ b₁, EmptyBuffer b₁ → ∀ c : Chunk, c.bytes = fedOf calls → c.Pre b₁ →
        ∃ b', c.exec b₁ = ⟨.ok (), b', traceOf calls⟩ ∧ b'.readable = b.readable := by
  obtain ⟨hwf, hsplits⟩ := splits_of_run h₀ h
  refine ⟨hsplits, ?_, ?_⟩
  · intro c hpre
    obtain ⟨b', lines, hexec, -⟩ := Chunk.exec_spec hwf hpre
    rw [hexec]
  · intro b₁ h₁ c hbytes hpre
    obtain ⟨b', lines, hexec, -, hsplits'⟩ := Chunk.exec_spec h₁.wf hpre
    rw [h₁.1, List.nil_append, hbytes] at hsplits'
    obtain ⟨rfl, hleft⟩ := hsplits'.unique hsplits
    exact ⟨b', hexec, hleft⟩

/-- A line end that comes in two chunks, and one right behind it. -/
theorem lines_of_chunks_of_two :
    ∃ calls b, Run Chunk.exec (fun _ call => call.input.Pre call.before) (Buffer.init 2) calls b ∧
      (Splits kCRLF (fedOf calls) (traceOf calls) b.readable ∧
        (∀ c : Chunk, c.Pre b → (c.exec b).val = .ok ()) ∧
        ∀ b₁, EmptyBuffer b₁ → ∀ c : Chunk, c.bytes = fedOf calls → c.Pre b₁ →
          ∃ b', c.exec b₁ = ⟨.ok (), b', traceOf calls⟩ ∧ b'.readable = b.readable) ∧
      traceOf calls = [[97], []] ∧ b.readable = [98] := by
  have hrun : Run Chunk.exec (fun _ call => call.input.Pre call.before) (Buffer.init 2) _ _ :=
    run_replay [.append [97, 13], .readFd [10, 13, 10, 98]] (by decide +kernel)
  have hempty : EmptyBuffer (Buffer.init 2) := ⟨readable_init _, 2, [], .nil⟩
  exact ⟨_, _, hrun, lines_of_chunks hempty hrun, by decide +kernel, by decide +kernel⟩

end Cannet.Net
