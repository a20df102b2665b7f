import Cannet.Net.TcpConnection
import Mathlib.Algebra.BigOperators.Group.List.Basic
import Mathlib.Algebra.Ring.Nat

/-!
# The byte buffer, access by access

The operations of `net/Buffer.h` and `net/Buffer.cpp` once more, now with every read and write of
the vector checked: one that is out of range stops the call, as a failed assertion does. The trace
holds the strings handed to the caller.

On a well-formed buffer the checked operations leave what the operations of `Buffer` leave
(`ensureWritableBytes_checked`, `append_checked`, `readFd_checked`): no access of theirs is out of
range.
-/

namespace Cannet.Net

open Foundations

/-- A call on a buffer. -/
abbrev BufferAct (β α : Type) := Act Abort (List β) (Buffer β) α

namespace Buffer.Checked

variable {β : Type}

/-- `std::copy` of `data` into the vector, from position `pos` on. -/
def copyIn (pos : ℕ) (data : List β) : BufferAct β Unit := do
  let b ← Act.get
  Act.check .outOfBounds (pos + data.length ≤ b.buffer.length)
  Act.modify fun b => { b with buffer := copyTo pos data b.buffer }

/-- The `len` bytes of the vector from position `pos` on. -/
def copyOut (pos len : ℕ) : BufferAct β (List β) := do
  let b ← Act.get
  Act.check .outOfBounds (pos + len ≤ b.buffer.length)
  pure ((b.buffer.drop pos).take len)

/-- An operation that moves the indices only; its assertion may fail. -/
def indices (op : Buffer β → Option (Buffer β)) : BufferAct β Unit := do
  let b ← Act.get
  let b ← Act.need .assertion (op b)
  Act.modify fun _ => b

def retrieveUntil (pos : ℕ) : BufferAct β Unit := do
  let b ← Act.get
  Act.check .assertion (b.readerIndex ≤ pos)
  Act.check .assertion (pos ≤ b.writerIndex)
  indices (·.retrieve (pos - b.readerIndex))

def retrieveAsString (len : ℕ) : BufferAct β Unit := do
  let b ← Act.get
  Act.check .assertion (len ≤ b.readableBytes)
  let result ← copyOut b.readerIndex len
  indices (·.retrieve len)
  Act.emit result

/-- The copy goes to a lower position, so `std::copy` is right for overlapping ranges. -/
def makeSpace [Inhabited β] (len : ℕ) : BufferAct β Unit := do
  let b ← Act.get
  if b.writeableBytes + b.prependableBytes < len + kPrepend then
    Act.modify fun b => { b with buffer := resize (b.writerIndex + len) b.buffer }
  else
    Act.check .assertion (kPrepend < b.readerIndex)
    let bytes ← copyOut b.readerIndex b.readableBytes
    copyIn kPrepend bytes
    Act.modify fun b' =>
      { b' with readerIndex := kPrepend, writerIndex := kPrepend + b.readableBytes }
    let b' ← Act.get
    Act.check .assertion (b.readableBytes = b'.readableBytes)

def ensureWritableBytes [Inhabited β] (len : ℕ) : BufferAct β Unit := do
  let b ← Act.get
  if b.writeableBytes < len then
    makeSpace len

def append [Inhabited β] (data : List β) : BufferAct β Unit := do
  ensureWritableBytes data.length
  let b ← Act.get
  copyIn b.writerIndex data
  indices (·.hasWritten data.length)

def prepend (data : List β) : BufferAct β Unit := do
  let b ← Act.get
  Act.check .assertion (data.length ≤ b.prependableBytes)
  Act.modify fun b => { b with readerIndex := b.readerIndex - data.length }
  copyIn (b.readerIndex - data.length) data

/-- `sizeof extrabuf`. -/
def extrabufSize : ℕ := 65536

/-- The lengths of the vectors `readFd` gives to `readv`. -/
def iovecs (b : Buffer β) : List ℕ :=
  if b.writeableBytes < extrabufSize then [b.writeableBytes, extrabufSize] else [b.writeableBytes]

/-- `readv` fills its vectors in order: the writable part, then `extrabuf`. -/
def readFd [Inhabited β] : TcpConnection.ReadRet β → BufferAct β Unit
  | .err _ => pure ()
  | .ok received => do
    let b ← Act.get
    let writable := b.writeableBytes
    copyIn b.writerIndex (received.take writable)
    if received.length ≤ writable then
      Act.modify fun b => { b with writerIndex := b.writerIndex + received.length }
    else
      Act.modify fun b => { b with writerIndex := b.buffer.length }
      Act.check .outOfBounds (received.length - writable ≤ extrabufSize)
      append (received.drop writable)

/-! ## Accesses in range -/

theorem copyIn_apply {pos : ℕ} {data : List β} {b : Buffer β}
    (h : pos + data.length ≤ b.buffer.length) :
    copyIn pos data b = ⟨.ok (), { b with buffer := copyTo pos data b.buffer }, []⟩ := by
  rw [copyIn, Act.get_bind, Act.check_pos _ h]
  rfl

theorem copyOut_apply {pos len : ℕ} {b : Buffer β} (h : pos + len ≤ b.buffer.length) :
    copyOut pos len b = ⟨.ok ((b.buffer.drop pos).take len), b, []⟩ := by
  rw [copyOut, Act.get_bind, Act.check_pos _ h]
  rfl

theorem indices_apply {op : Buffer β → Option (Buffer β)} {b b' : Buffer β} (h : op b = some b') :
    indices op b = ⟨.ok (), b', []⟩ := by
  rw [indices, Act.get_bind, h]
  rfl

variable [Inhabited β]

/-- Making room reads and writes inside the vector, and passes both assertions of `makeSpace`. -/
theorem ensureWritableBytes_checked {b : Buffer β} (h : b.Wf) (len : ℕ) :
    ∃ b', b.ensureWritableBytes len = some b' ∧
      ensureWritableBytes len b = ⟨.ok (), b', []⟩ := by
  have hr := h.reader_le
  have hw := h.writer_le
  have hroom : b.writeableBytes = b.buffer.length - b.writerIndex := rfl
  have hfront : b.prependableBytes = b.readerIndex := rfl
  have hread : b.readableBytes = b.writerIndex - b.readerIndex := rfl
  rw [Buffer.ensureWritableBytes, ensureWritableBytes, Act.get_bind, Act.ite_apply]
  by_cases hlt : b.writeableBytes < len
  · rw [if_pos hlt, if_pos hlt, Buffer.makeSpace, makeSpace, Act.get_bind, Act.ite_apply]
    by_cases hgrow : b.writeableBytes + b.prependableBytes < len + kPrepend
    · rw [if_pos hgrow, if_pos hgrow]
      exact ⟨_, rfl, rfl⟩
    · have hreader : kPrepend < b.readerIndex := by omega
      have hout : b.readerIndex + b.readableBytes ≤ b.buffer.length := by omega
      have hin : kPrepend + ((b.buffer.drop b.readerIndex).take b.readableBytes).length ≤
          b.buffer.length := by
        rw [List.length_take]
        omega
      rw [if_neg hgrow, if_neg hgrow, if_pos hreader, Act.check_pos _ hreader, Act.pure_bind,
        Act.bind_ok (copyOut_apply hout), Act.bind_ok (copyIn_apply hin), Act.modify_bind,
        Act.get_bind]
      let b' : Buffer β :=
        ⟨copyTo kPrepend b.readable b.buffer, kPrepend, kPrepend + b.readableBytes⟩
      have hsame : b.readableBytes = b'.readableBytes := (Nat.add_sub_cancel_left _ _).symm
      have hcheck : (Act.check .assertion (b.readableBytes = b'.readableBytes) :
          BufferAct β Unit) b' = ⟨.ok (), b', []⟩ := by
        rw [Act.check_pos _ hsame]
        rfl
      refine ⟨b', rfl, ?_⟩
      rw [Outcome.after_nil, Outcome.after_nil]
      exact hcheck
  · rw [if_neg hlt, if_neg hlt]
    exact ⟨b, rfl, rfl⟩

theorem append_checked {b : Buffer β} (h : b.Wf) (data : List β) :
    ∃ b', b.append data = some b' ∧ append data b = ⟨.ok (), b', []⟩ := by
  obtain ⟨b₁, h₁, hw₁, -, hroom⟩ := ensureWritableBytes_spec h data.length
  obtain ⟨b₂, h₂, hc⟩ := ensureWritableBytes_checked h data.length
  obtain rfl : b₂ = b₁ := Option.some.inj (h₂.symm.trans h₁)
  have hfit : b₂.writerIndex + data.length ≤ b₂.buffer.length := by
    have := hw₁.writer_le
    simp only [writeableBytes] at hroom
    omega
  obtain ⟨b', hb', -, -⟩ := append_spec h data
  refine ⟨b', hb', ?_⟩
  simp only [Buffer.append, h₁, Option.bind_eq_bind, Option.bind_some] at hb'
  rw [append, Act.bind_ok hc, Act.get_bind, Act.bind_ok (copyIn_apply hfit), indices_apply hb']
  rfl

/-- A read of at most as many bytes as the vectors hold stays inside the vector and `extrabuf`. -/
theorem readFd_checked {b : Buffer β} (h : b.Wf) {received : List β}
    (hsum : received.length ≤ (iovecs b).sum) :
    ∃ b', b.readFd received = some b' ∧ readFd (.ok received) b = ⟨.ok (), b', []⟩ := by
  have hw := h.writer_le
  have hfit : b.writerIndex + (received.take b.writeableBytes).length ≤ b.buffer.length := by
    rw [List.length_take, writeableBytes]
    omega
  simp only [Buffer.readFd]
  rw [readFd, Act.get_bind, Act.bind_ok (copyIn_apply hfit), Act.ite_apply]
  by_cases hle : received.length ≤ b.writeableBytes
  · rw [if_pos hle, if_pos hle]
    exact ⟨_, rfl, rfl⟩
  · have hextra : received.length - b.writeableBytes ≤ extrabufSize := by
      unfold iovecs at hsum
      split at hsum
      · simp only [List.sum_cons, List.sum_nil] at hsum
        omega
      · simp only [List.sum_cons, List.sum_nil] at hsum
        omega
    have hlen := length_copyTo hfit
    have hfull : Wf (⟨copyTo b.writerIndex (received.take b.writeableBytes) b.buffer,
        b.readerIndex, (copyTo b.writerIndex (received.take b.writeableBytes) b.buffer).length⟩ :
        Buffer β) := by
      refine ⟨?_, Nat.le_refl _, ?_⟩
      · simp only [hlen]
        exact Nat.le_trans h.reader_le hw
      · simp only [hlen]
        exact h.prepend_le
    obtain ⟨b', hb', hc⟩ := append_checked hfull (received.drop b.writeableBytes)
    refine ⟨b', ?_, ?_⟩
    · rw [if_neg hle]
      exact hb'
    · rw [if_neg hle, Act.modify_bind, Act.check_pos _ hextra, Act.pure_bind, hc]
      rfl

end Buffer.Checked

end Cannet.Net
