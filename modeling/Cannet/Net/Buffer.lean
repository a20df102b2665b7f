import Mathlib.Data.List.TakeDrop
import Mathlib.Order.Basic

/-!
# The byte buffer

`Buffer` of `net/Buffer.h`: a vector with two indices, the readable bytes between them. An
operation whose assertion fails is `none`. The bytes are of any type `β`: nothing here looks at
them, so a run may carry whatever a reader wants to know about each byte along with it.

`Buffer.Wf` is the order of the two indices and the size. On such a buffer the operations a
connection uses pass their assertions, keep `Wf` and act on `readable` as on a queue
(`append_spec`, `retrieve_spec`, `readFd_spec`).
-/

namespace Cannet.Net

/-- `std::copy` of `data` into `l`, from position `pos` on. -/
def copyTo {β : Type} (pos : ℕ) (data l : List β) : List β :=
  l.take pos ++ data ++ l.drop (pos + data.length)

/-- `std::vector::resize`. -/
def resize {β : Type} [Inhabited β] (n : ℕ) (l : List β) : List β :=
  l.take n ++ List.replicate (n - l.length) default

structure Buffer (β : Type) where
  buffer : List β
  readerIndex : ℕ
  writerIndex : ℕ
  deriving DecidableEq, Repr

namespace Buffer

variable {β : Type}

def kPrepend : ℕ := 8

def kInitSize : ℕ := 1024

/-- A buffer as its constructor leaves it. -/
def init [Inhabited β] (initialSize : ℕ) : Buffer β :=
  ⟨List.replicate (kPrepend + initialSize) default, kPrepend, kPrepend⟩

def readableBytes (b : Buffer β) : ℕ := b.writerIndex - b.readerIndex

def writeableBytes (b : Buffer β) : ℕ := b.buffer.length - b.writerIndex

def prependableBytes (b : Buffer β) : ℕ := b.readerIndex

/-- The bytes from `peek()` up to `beginWrite()`. -/
def readable (b : Buffer β) : List β := (b.buffer.drop b.readerIndex).take b.readableBytes

def retrieveAll (b : Buffer β) : Buffer β :=
  { b with readerIndex := kPrepend, writerIndex := kPrepend }

def retrieve (len : ℕ) (b : Buffer β) : Option (Buffer β) :=
  if len ≤ b.readableBytes then
    if len < b.readableBytes then some { b with readerIndex := b.readerIndex + len }
    else some b.retrieveAll
  else none

def hasWritten (len : ℕ) (b : Buffer β) : Option (Buffer β) :=
  if len ≤ b.writeableBytes then some { b with writerIndex := b.writerIndex + len } else none

def makeSpace [Inhabited β] (len : ℕ) (b : Buffer β) : Option (Buffer β) :=
  if b.writeableBytes + b.prependableBytes < len + kPrepend then
    some { b with buffer := resize (b.writerIndex + len) b.buffer }
  else if kPrepend < b.readerIndex then
    some ⟨copyTo kPrepend b.readable b.buffer, kPrepend, kPrepend + b.readableBytes⟩
  else none

def ensureWritableBytes [Inhabited β] (len : ℕ) (b : Buffer β) : Option (Buffer β) :=
  if b.writeableBytes < len then b.makeSpace len else some b

def append [Inhabited β] (data : List β) (b : Buffer β) : Option (Buffer β) := do
  let b ← b.ensureWritableBytes data.length
  { b with buffer := copyTo b.writerIndex data b.buffer }.hasWritten data.length

/-- `readFd` when `readv` filled its vectors with `received`: the writable part first, the stack
buffer with the rest. -/
def readFd [Inhabited β] (received : List β) (b : Buffer β) : Option (Buffer β) :=
  let writable := b.writeableBytes
  let filled := { b with buffer := copyTo b.writerIndex (received.take writable) b.buffer }
  if received.length ≤ writable then
    some { filled with writerIndex := b.writerIndex + received.length }
  else
    { filled with writerIndex := filled.buffer.length }.append (received.drop writable)

/-! ## Well-formed buffers -/

/-- The order of the indices and the size; the reserve in front is inside the vector. -/
structure Wf (b : Buffer β) : Prop where
  reader_le : b.readerIndex ≤ b.writerIndex
  writer_le : b.writerIndex ≤ b.buffer.length
  prepend_le : kPrepend ≤ b.buffer.length

theorem readable_eq (b : Buffer β) :
    b.readable = (b.buffer.take b.writerIndex).drop b.readerIndex := by
  rw [List.drop_take, readable, readableBytes]

namespace Wf

variable {b : Buffer β}

theorem length_readable (h : b.Wf) : b.readable.length = b.readableBytes := by
  have := h.writer_le
  simp only [readable, List.length_take, List.length_drop, readableBytes]
  omega

theorem readableBytes_eq_zero (h : b.Wf) : b.readableBytes = 0 ↔ b.readable = [] := by
  rw [← h.length_readable, List.length_eq_zero_iff]

end Wf

theorem init_wf [Inhabited β] (n : ℕ) : (init n : Buffer β).Wf :=
  ⟨Nat.le_refl _, by simp [init], by simp [init]⟩

@[simp] theorem readable_init [Inhabited β] (n : ℕ) : (init n : Buffer β).readable = [] := by
  simp [init, readable, readableBytes]

@[simp] theorem readable_retrieveAll (b : Buffer β) : b.retrieveAll.readable = [] := by
  simp [retrieveAll, readable, readableBytes]

theorem Wf.retrieveAll {b : Buffer β} (h : b.Wf) : b.retrieveAll.Wf :=
  ⟨Nat.le_refl _, h.prepend_le, h.prepend_le⟩

/-- **`retrieve` drops from the front.** -/
theorem retrieve_spec {b : Buffer β} (h : b.Wf) {len : ℕ} (hlen : len ≤ b.readable.length) :
    ∃ b', b.retrieve len = some b' ∧ b'.Wf ∧ b'.readable = b.readable.drop len := by
  have hw := h.writer_le
  rw [h.length_readable] at hlen
  rw [retrieve, if_pos hlen]
  split
  · rename_i hlt
    refine ⟨_, rfl, ⟨?_, hw, h.prepend_le⟩, ?_⟩
    · simp only [readableBytes] at hlt ⊢
      omega
    · simp only [readable, readableBytes, List.drop_take, List.drop_drop]
      congr 1
      omega
  · rename_i hlt
    refine ⟨_, rfl, h.retrieveAll, ?_⟩
    rw [readable_retrieveAll, List.drop_eq_nil_of_le]
    rw [h.length_readable]
    omega

/-! ## Making room -/

theorem length_copyTo {pos : ℕ} {data l : List β} (h : pos + data.length ≤ l.length) :
    (copyTo pos data l).length = l.length := by
  simp only [copyTo, List.length_append, List.length_take, List.length_drop]
  omega

theorem take_copyTo {pos : ℕ} {data l : List β} (h : pos ≤ l.length) :
    (copyTo pos data l).take (pos + data.length) = l.take pos ++ data := by
  rw [copyTo, List.take_left']
  rw [List.length_append, List.length_take_of_le h]

variable [Inhabited β]

theorem length_resize {n : ℕ} {l : List β} (h : l.length ≤ n) : (resize n l).length = n := by
  simp only [resize, List.length_append, List.length_take, List.length_replicate]
  omega

theorem take_resize {m n : ℕ} {l : List β} (hm : m ≤ l.length) (h : l.length ≤ n) :
    (resize n l).take m = l.take m := by
  rw [resize, List.take_of_length_le h, List.take_append_of_le_length hm]

/-- `ensureWritableBytes` passes its assertion, keeps the readable bytes and leaves the room asked
for, whether it grows the vector or moves the bytes to its front. -/
theorem ensureWritableBytes_spec {b : Buffer β} (h : b.Wf) (len : ℕ) :
    ∃ b', b.ensureWritableBytes len = some b' ∧ b'.Wf ∧ b'.readable = b.readable ∧
      len ≤ b'.writeableBytes := by
  obtain ⟨hr, hw, hp⟩ := h
  have hlen := Wf.length_readable ⟨hr, hw, hp⟩
  have hroom : b.writeableBytes = b.buffer.length - b.writerIndex := rfl
  have hfront : b.prependableBytes = b.readerIndex := rfl
  rw [ensureWritableBytes]
  by_cases hlt : b.writeableBytes < len
  · rw [if_pos hlt, makeSpace]
    by_cases hgrow : b.writeableBytes + b.prependableBytes < len + kPrepend
    · -- the vector grows
      have hle : b.buffer.length ≤ b.writerIndex + len := by omega
      rw [if_pos hgrow]
      refine ⟨_, rfl, ⟨hr, ?_, ?_⟩, ?_, ?_⟩
      · simp only [length_resize hle]
        omega
      · simp only [length_resize hle]
        omega
      · simp only [readable_eq, take_resize hw hle]
      · simp only [writeableBytes, length_resize hle]
        omega
    · -- the readable bytes move to the front, over the part already retrieved
      rw [if_neg hgrow, if_pos (show kPrepend < b.readerIndex by omega)]
      have hfit : kPrepend + b.readable.length ≤ b.buffer.length := by
        rw [hlen, readableBytes]
        omega
      refine ⟨_, rfl, ⟨by simp, ?_, ?_⟩, ?_, ?_⟩
      · simp only [length_copyTo hfit, ← hlen]
        exact hfit
      · simp only [length_copyTo hfit]
        exact hp
      · rw [readable_eq]
        simp only [← hlen, take_copyTo hp]
        exact List.drop_left' (List.length_take_of_le hp)
      · simp only [writeableBytes, length_copyTo hfit, readableBytes]
        omega
  · rw [if_neg hlt]
    exact ⟨b, rfl, ⟨hr, hw, hp⟩, rfl, by omega⟩

/-- **`append` puts the bytes at the end**, whatever it takes to make room. -/
theorem append_spec {b : Buffer β} (h : b.Wf) (data : List β) :
    ∃ b', b.append data = some b' ∧ b'.Wf ∧ b'.readable = b.readable ++ data := by
  obtain ⟨b₁, h₁, ⟨hr, hw, hp⟩, hread, hroom⟩ := ensureWritableBytes_spec h data.length
  simp only [writeableBytes] at hroom
  have hfit : b₁.writerIndex + data.length ≤ b₁.buffer.length := by omega
  have hlen := length_copyTo hfit
  simp only [append, h₁, Option.bind_eq_bind, Option.bind_some, hasWritten, writeableBytes, hlen]
  rw [if_pos hroom]
  refine ⟨_, rfl, ⟨?_, ?_, ?_⟩, ?_⟩
  · simp only
    omega
  · simp only [hlen]
    exact hfit
  · simp only [hlen]
    exact hp
  · rw [← hread, readable_eq, readable_eq]
    simp only [take_copyTo hw]
    rw [List.drop_append_of_le_length]
    rw [List.length_take_of_le hw]
    exact hr

/-- **`readFd` puts the received bytes at the end.** -/
theorem readFd_spec {b : Buffer β} (h : b.Wf) (received : List β) :
    ∃ b', b.readFd received = some b' ∧ b'.Wf ∧ b'.readable = b.readable ++ received := by
  obtain ⟨hr, hw, hp⟩ := h
  have hfit : b.writerIndex + (received.take b.writeableBytes).length ≤ b.buffer.length := by
    rw [List.length_take, writeableBytes]
    omega
  have hlen := length_copyTo hfit
  -- the writable part is filled as `append` would
  have hread : ((copyTo b.writerIndex (received.take b.writeableBytes) b.buffer).take
      (b.writerIndex + (received.take b.writeableBytes).length)).drop b.readerIndex =
      b.readable ++ received.take b.writeableBytes := by
    rw [take_copyTo hw, List.drop_append_of_le_length (by rwa [List.length_take_of_le hw]),
      readable_eq]
  simp only [readFd]
  split
  · rename_i hle
    rw [List.take_of_length_le hle] at hread hlen hfit ⊢
    refine ⟨_, rfl, ⟨?_, ?_, ?_⟩, by rw [readable_eq]; exact hread⟩
    · simp only
      omega
    · simp only [hlen]
      exact hfit
    · simp only [hlen]
      exact hp
  · rename_i hle
    have hfull : (received.take b.writeableBytes).length = b.writeableBytes := by
      rw [List.length_take]
      omega
    rw [hfull, writeableBytes, Nat.add_sub_cancel' hw, ← writeableBytes] at hread
    have hwf : Wf (⟨copyTo b.writerIndex (received.take b.writeableBytes) b.buffer,
        b.readerIndex, (copyTo b.writerIndex (received.take b.writeableBytes) b.buffer).length⟩ :
        Buffer β) := ⟨by simp only [hlen]; omega, Nat.le_refl _, by simp only [hlen]; exact hp⟩
    obtain ⟨b', hb', hwf', hread'⟩ := append_spec hwf (received.drop b.writeableBytes)
    refine ⟨b', hb', hwf', ?_⟩
    rw [hread', readable_eq]
    simp only [hlen]
    rw [hread, List.append_assoc, List.take_append_drop]

end Buffer

end Cannet.Net
