import Cannet.Net.Buffer.Queue

/-!
# Giving room and bytes back

`shrink` and `unwrite` of `net/Buffer.h`, on any buffer a run reaches.

`shrink` computes the new size of the vector from the number of readable bytes, counted from the
front of the vector: what is left of the initial size pays for the part in front of the reader
only. A buffer whose reader stands further back keeps its bytes only if `ensureWritableBytes`
happens to move them (`shrink_preserves_iff`).

`unwrite` checks its argument against the room behind the writer, where `hasWritten` does: on a
roomy buffer it takes back more than was written, on a full one it refuses bytes that are there
(`unwrite_undoes_iff`).
-/

namespace Cannet.Net

open Foundations

namespace Buffer

variable {β : Type}

/-- The difference of two `size_t`, which wraps around. -/
def sizeSub (m n : ℕ) : ℕ := if n ≤ m then m - n else m + 2 ^ 64 - n

def unwrite (len : ℕ) (b : Buffer β) : Option (Buffer β) :=
  if len ≤ b.writeableBytes then some { b with writerIndex := sizeSub b.writerIndex len } else none

/-- `shrink_to_fit` changes the capacity only, which nothing here depends on. -/
def shrink [Inhabited β] (reserve : ℕ) (b : Buffer β) : Option (Buffer β) := do
  let b ← b.ensureWritableBytes (b.readableBytes + reserve)
  some { b with buffer := resize (b.readableBytes + reserve + kInitSize) b.buffer }

/-! ## Shrinking -/

/-- `ensureWritableBytes len` moves the readable bytes to the front. -/
def Compacts (len : ℕ) (b : Buffer β) : Prop :=
  b.writeableBytes < len ∧ len + kPrepend ≤ b.writeableBytes + b.prependableBytes

instance (len : ℕ) (b : Buffer β) : Decidable (b.Compacts len) :=
  inferInstanceAs (Decidable (_ ∧ _))

/-- What `shrink` is for: it returns, the readable bytes are what they were, the indices are in
order and there is the room asked for. -/
def ShrinkPreserves [Inhabited β] (reserve : ℕ) (b : Buffer β) : Prop :=
  ∃ b', b.shrink reserve = some b' ∧ b'.readable = b.readable ∧
    (b'.readerIndex ≤ b'.writerIndex ∧ b'.writerIndex ≤ b'.buffer.length) ∧
    reserve ≤ b'.writeableBytes

section Shrink

variable [Inhabited β]

/-- Making room leaves the reader where it is, or puts it behind the reserve in front. -/
theorem ensureWritableBytes_readerIndex {b b' : Buffer β} {len : ℕ}
    (h : b.ensureWritableBytes len = some b') :
    b'.readerIndex = if b.Compacts len then kPrepend else b.readerIndex := by
  rw [ensureWritableBytes] at h
  split at h
  · rename_i hlt
    rw [makeSpace] at h
    split at h
    · rename_i hgrow
      obtain rfl := Option.some.inj h
      rw [if_neg (fun hc => absurd hc.2 (Nat.not_le.2 hgrow))]
    · rename_i hgrow
      split at h
      · obtain rfl := Option.some.inj h
        rw [if_pos ⟨hlt, Nat.not_lt.1 hgrow⟩]
      · cases h
  · rename_i hlt
    obtain rfl := Option.some.inj h
    rw [if_neg (fun hc => hlt hc.1)]

/-- A vector cut or grown at or behind the writer keeps what is readable. -/
theorem readable_resize {b : Buffer β} {n : ℕ} (h : b.Wf) (hn : b.writerIndex ≤ n) :
    readable { b with buffer := resize n b.buffer } = b.readable := by
  have hw := h.writer_le
  rw [readable_eq, readable_eq]
  simp only
  rw [resize, List.take_append_of_le_length, List.take_take, Nat.min_eq_left hn]
  rw [List.length_take]
  omega

/-- Unlike `length_resize`, for a smaller size too. -/
theorem length_resize_eq (n : ℕ) (l : List β) : (resize n l).length = n := by
  rw [resize, List.length_append, List.length_take, List.length_replicate]
  omega

/-- **`shrink` is right when the reader is near the front** by the time the vector is cut. -/
theorem shrinkPreserves_iff {b : Buffer β} (h : b.Wf) (reserve : ℕ) :
    b.ShrinkPreserves reserve ↔
      b.readerIndex ≤ kInitSize ∨ b.Compacts (b.readableBytes + reserve) := by
  obtain ⟨b₁, h₁, hwf, hread, -⟩ := ensureWritableBytes_spec h (b.readableBytes + reserve)
  have hreader := ensureWritableBytes_readerIndex h₁
  have hbytes : b₁.readableBytes = b.readableBytes := by
    rw [← hwf.length_readable, ← h.length_readable, hread]
  have hshrink : b.shrink reserve =
      some { b₁ with buffer := resize (b₁.readableBytes + reserve + kInitSize) b₁.buffer } := by
    simp only [shrink, h₁, Option.bind_eq_bind, Option.bind_some]
  -- all that counts is where the reader stands when the vector is cut
  have hpos : b.readerIndex ≤ kInitSize ∨ b.Compacts (b.readableBytes + reserve) ↔
      b₁.readerIndex ≤ kInitSize := by
    rw [hreader]
    split
    · rename_i hc
      exact iff_of_true (.inr hc) (by decide)
    · rename_i hc
      exact or_iff_left hc
  have hwriter : b₁.writerIndex = b₁.readerIndex + b₁.readableBytes := by
    rw [readableBytes, Nat.add_sub_cancel' hwf.reader_le]
  rw [hpos]
  constructor
  · rintro ⟨b', hb', -, ⟨-, hw⟩, hroom⟩
    obtain rfl := Option.some.inj (hshrink.symm.trans hb')
    simp only [writeableBytes, length_resize_eq] at hw hroom
    omega
  · intro hle
    refine ⟨_, hshrink, ?_, ⟨hwf.reader_le, ?_⟩, ?_⟩
    · rw [readable_resize hwf (by omega), hread]
    · simp only [length_resize_eq]
      omega
    · simp only [writeableBytes, length_resize_eq]
      omega

end Shrink

/-! ## Taking bytes back -/

/-- What `unwrite` is for: an argument it accepts leaves the indices in order and takes that many
bytes off the end; an argument no longer than what is readable is accepted. -/
def UnwriteUndoes (len : ℕ) (b : Buffer β) : Prop :=
  (∀ b', b.unwrite len = some b' → b'.readerIndex ≤ b'.writerIndex ∧
      ∃ last, last.length = len ∧ b.readable = b'.readable ++ last) ∧
    (len ≤ b.readableBytes → (b.unwrite len).isSome)

/-- Taking off at most what is readable. -/
theorem readable_unwrite {b b' : Buffer β} (h : b.Wf) {len : ℕ} (hlen : len ≤ b.readableBytes)
    (hb' : b.unwrite len = some b') :
    b'.readerIndex ≤ b'.writerIndex ∧ b'.readable = b.readable.take (b.readableBytes - len) := by
  have hr := h.reader_le
  rw [readableBytes] at hlen
  have hle : len ≤ b.writerIndex := by omega
  rw [unwrite] at hb'
  split at hb'
  · obtain rfl := Option.some.inj hb'
    have hcount : b.writerIndex - len - b.readerIndex = b.readableBytes - len := by
      rw [readableBytes]
      omega
    rw [sizeSub, if_pos hle]
    refine ⟨?_, ?_⟩
    · simp only
      omega
    · simp only [readable]
      rw [List.take_take, Nat.min_eq_left (Nat.sub_le _ _), ← hcount]
      rfl
  · cases hb'

/-- **`unwrite` is right when its assertion agrees with the number of readable bytes.** -/
theorem unwriteUndoes_iff {b : Buffer β} (h : b.Wf) (len : ℕ) :
    b.UnwriteUndoes len ↔ (len ≤ b.readableBytes ↔ len ≤ b.writeableBytes) := by
  have haccept : (b.unwrite len).isSome ↔ len ≤ b.writeableBytes := by
    rw [unwrite]
    split <;> simp_all
  constructor
  · rintro ⟨hundo, hall⟩
    refine ⟨fun hle => haccept.1 (hall hle), fun hle => ?_⟩
    obtain ⟨b', hb'⟩ := Option.isSome_iff_exists.1 (haccept.2 hle)
    obtain ⟨-, last, hlast, hread⟩ := hundo b' hb'
    rw [← h.length_readable, hread, List.length_append, hlast]
    exact Nat.le_add_left _ _
  · intro hiff
    refine ⟨fun b' hb' => ?_, fun hle => haccept.2 (hiff.1 hle)⟩
    have hle : len ≤ b.readableBytes :=
      hiff.2 (haccept.1 (Option.isSome_iff_exists.2 ⟨b', hb'⟩))
    obtain ⟨horder, hread⟩ := readable_unwrite h hle hb'
    refine ⟨horder, b.readable.drop (b.readableBytes - len), ?_, ?_⟩
    · rw [List.length_drop, h.length_readable]
      omega
    · rw [hread, List.take_append_drop]

end Buffer

/-! ## After any run -/

section Reachable

variable {β : Type} [Inhabited β] {initialSize : ℕ} {calls : List (BufferCall β)} {b : Buffer β}

/-- **When `shrink` preserves the data**, of every buffer a run reaches: the reader is inside the
initial size, or the bytes are moved to the front first. -/
theorem shrink_preserves_iff
    (h : Run BufferOp.exec (fun _ call => call.input.Pre call.before) (Buffer.init initialSize)
      calls b) (reserve : ℕ) :
    b.ShrinkPreserves reserve ↔
      b.readerIndex ≤ Buffer.kInitSize ∨ b.Compacts (b.readableBytes + reserve) :=
  Buffer.shrinkPreserves_iff (queueOf_of_run h).1 reserve

omit [Inhabited β] in
/-- A buffer whose bytes are moved to the front before it is cut. -/
theorem shrink_preserves_iff_of_compacts :
    ∃ calls b, Run (BufferOp.exec (β := ℕ)) (fun _ call => call.input.Pre call.before)
        (Buffer.init 1024) calls b ∧
      (b.ShrinkPreserves 1000 ↔
        b.readerIndex ≤ Buffer.kInitSize ∨ b.Compacts (b.readableBytes + 1000)) ∧
      b.ShrinkPreserves 1000 ∧ Buffer.kInitSize < b.readerIndex := by
  have hrun : Run (BufferOp.exec (β := ℕ)) (fun _ call => call.input.Pre call.before)
      (Buffer.init 1024) _ _ :=
    run_replay [.append (List.replicate 1020 7), .retrieve 1019] (by decide +kernel)
  have hiff := shrink_preserves_iff hrun 1000
  exact ⟨_, _, hrun, hiff, hiff.2 (.inr (by decide +kernel)), by decide +kernel⟩

omit [Inhabited β] in
/-- 1020 bytes, all but one of them retrieved, in a buffer of the default size: `shrink 0` cuts the
vector in front of the last one. -/
theorem shrink_cuts_readable :
    ∃ calls b, Run (BufferOp.exec (β := ℕ)) (fun _ call => call.input.Pre call.before)
        (Buffer.init Buffer.kInitSize) calls b ∧
      b.readable = [7] ∧ (b.shrink 0).map Buffer.readable = some [] ∧ ¬ b.ShrinkPreserves 0 := by
  have hrun : Run (BufferOp.exec (β := ℕ)) (fun _ call => call.input.Pre call.before)
      (Buffer.init Buffer.kInitSize) _ _ :=
    run_replay [.append (List.replicate 1020 7), .retrieve 1019] (by decide +kernel)
  refine ⟨_, _, hrun, by decide +kernel, by decide +kernel, ?_⟩
  rw [Buffer.shrinkPreserves_iff (queueOf_of_run hrun).1]
  decide +kernel

/-- **When `unwrite` undoes appended bytes and nothing more**, of every buffer a run reaches: its
argument is within the readable bytes and the writable ones, or within neither. -/
theorem unwrite_undoes_iff
    (h : Run BufferOp.exec (fun _ call => call.input.Pre call.before) (Buffer.init initialSize)
      calls b) (len : ℕ) :
    b.UnwriteUndoes len ↔ (len ≤ b.readableBytes ↔ len ≤ b.writeableBytes) :=
  Buffer.unwriteUndoes_iff (queueOf_of_run h).1 len

omit [Inhabited β] in
/-- Two of three bytes taken back. -/
theorem unwrite_undoes_iff_of_two :
    ∃ calls b, Run (BufferOp.exec (β := ℕ)) (fun _ call => call.input.Pre call.before)
        (Buffer.init 16) calls b ∧
      (b.UnwriteUndoes 2 ↔ (2 ≤ b.readableBytes ↔ 2 ≤ b.writeableBytes)) ∧ b.UnwriteUndoes 2 := by
  have hrun : Run (BufferOp.exec (β := ℕ)) (fun _ call => call.input.Pre call.before)
      (Buffer.init 16) _ _ := run_replay [.append [1, 2, 3]] (by decide +kernel)
  have hiff := unwrite_undoes_iff hrun 2
  exact ⟨_, _, hrun, hiff, hiff.2 (by decide +kernel)⟩

omit [Inhabited β] in
/-- Three bytes are taken back where two were appended, and the writer passes the reader; with the
vector full, the one byte appended last is not. -/
theorem unwrite_crosses :
    (∃ calls b, Run (BufferOp.exec (β := ℕ)) (fun _ call => call.input.Pre call.before)
        (Buffer.init Buffer.kInitSize) calls b ∧
      b.readable = [1, 2] ∧
      (b.unwrite 3).map (fun b' => (b'.readerIndex, b'.writerIndex)) = some (8, 7) ∧
      ¬ b.UnwriteUndoes 3) ∧
    ∃ calls b, Run (BufferOp.exec (β := ℕ)) (fun _ call => call.input.Pre call.before)
        (Buffer.init 4) calls b ∧
      b.readable = [1, 2, 3, 4] ∧ b.unwrite 1 = none ∧ ¬ b.UnwriteUndoes 1 := by
  have hroomy : Run (BufferOp.exec (β := ℕ)) (fun _ call => call.input.Pre call.before)
      (Buffer.init Buffer.kInitSize) _ _ := run_replay [.append [1, 2]] (by decide +kernel)
  have hfull : Run (BufferOp.exec (β := ℕ)) (fun _ call => call.input.Pre call.before)
      (Buffer.init 4) _ _ := run_replay [.append [1, 2, 3, 4]] (by decide +kernel)
  refine ⟨⟨_, _, hroomy, by decide +kernel, by decide +kernel, ?_⟩,
    ⟨_, _, hfull, by decide +kernel, by decide +kernel, ?_⟩⟩
  · rw [Buffer.unwriteUndoes_iff (queueOf_of_run hroomy).1]
    decide +kernel
  · rw [Buffer.unwriteUndoes_iff (queueOf_of_run hfull).1]
    decide +kernel

end Reachable

end Cannet.Net
