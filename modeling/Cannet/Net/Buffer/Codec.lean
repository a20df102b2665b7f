import Cannet.Foundations.Bytes
import Cannet.Net.Buffer.Queue

/-!
# Integers in a buffer

`appendIntN`, `peekIntN`, `readIntN`, `retrieveIntN` and `prependIntN` of `net/Buffer.h`, for the
four widths, on a machine of either byte order. The calls for 8 bits neither convert nor copy.

A buffer into which integers and plain bytes are put is told as a list of items; its readable bytes
are those of the items (`Item.bytes`). Each operation, of the integers or of the bytes, is an
operation on the items (`CodecOp.items`) as long as it leaves no part of an integer behind
(`CodecOp.done`), so the integers come out as they went in.
-/

namespace Cannet.Net

open Foundations Buffer

/-- The integer types `int8_t`, `int16_t`, `int32_t`, `int64_t`. -/
inductive Width
  | w8
  | w16
  | w32
  | w64
  deriving DecidableEq, Repr

def Width.sizeof : Width → ℕ
  | w8 => 1
  | w16 => 2
  | w32 => 4
  | w64 => 8

/-- The words of a width; `BitVec.toInt` is their value. -/
abbrev IntN (w : Width) : Type := BitVec (8 * w.sizeof)

namespace Buffer.Checked

variable (host : Endian)

def appendInt (w : Width) (x : IntN w) : BufferAct Byte Unit := append (host.memory (host.htobe x))

def appendInt64 : IntN .w64 → BufferAct Byte Unit := appendInt host .w64

def appendInt32 : IntN .w32 → BufferAct Byte Unit := appendInt host .w32

def appendInt16 : IntN .w16 → BufferAct Byte Unit := appendInt host .w16

def appendInt8 (x : IntN .w8) : BufferAct Byte Unit := append (host.memory x)

def appendIntN : (w : Width) → IntN w → BufferAct Byte Unit
  | .w8 => appendInt8 host
  | .w16 => appendInt16 host
  | .w32 => appendInt32 host
  | .w64 => appendInt64 host

/-- `memcpy` of the bytes at `peek()` into a word, and back to the order of the machine. -/
def peekInt (w : Width) : BufferAct Byte (IntN w) := do
  let b ← Act.get
  Act.check .assertion (w.sizeof ≤ b.readableBytes)
  let bytes ← copyOut b.readerIndex w.sizeof
  pure (host.betoh (host.ofMemory bytes))

def peekInt64 : BufferAct Byte (IntN .w64) := peekInt host .w64

def peekInt32 : BufferAct Byte (IntN .w32) := peekInt host .w32

def peekInt16 : BufferAct Byte (IntN .w16) := peekInt host .w16

def peekInt8 : BufferAct Byte (IntN .w8) := do
  let b ← Act.get
  Act.check .assertion (Width.w8.sizeof ≤ b.readableBytes)
  let x ← copyOut b.readerIndex 1
  pure (host.ofMemory x)

def retrieveInt (w : Width) : BufferAct Byte Unit := indices (·.retrieve w.sizeof)

def readInt64 : BufferAct Byte (IntN .w64) := do
  let result ← peekInt64 host
  retrieveInt .w64
  pure result

def readInt32 : BufferAct Byte (IntN .w32) := do
  let result ← peekInt32 host
  retrieveInt .w32
  pure result

def readInt16 : BufferAct Byte (IntN .w16) := do
  let result ← peekInt16 host
  retrieveInt .w16
  pure result

def readInt8 : BufferAct Byte (IntN .w8) := do
  let result ← peekInt8 host
  retrieveInt .w8
  pure result

def readIntN : (w : Width) → BufferAct Byte (IntN w)
  | .w8 => readInt8 host
  | .w16 => readInt16 host
  | .w32 => readInt32 host
  | .w64 => readInt64 host

def prependInt (w : Width) (x : IntN w) : BufferAct Byte Unit :=
  prepend (host.memory (host.htobe x))

def prependInt64 : IntN .w64 → BufferAct Byte Unit := prependInt host .w64

def prependInt32 : IntN .w32 → BufferAct Byte Unit := prependInt host .w32

def prependInt16 : IntN .w16 → BufferAct Byte Unit := prependInt host .w16

def prependInt8 (x : IntN .w8) : BufferAct Byte Unit := prepend (host.memory x)

def prependIntN : (w : Width) → IntN w → BufferAct Byte Unit
  | .w8 => prependInt8 host
  | .w16 => prependInt16 host
  | .w32 => prependInt32 host
  | .w64 => prependInt64 host

/-! ## What is written and what is read -/

/-- The encoding of an integer. -/
def encode {w : Width} (x : IntN w) : List Byte := twosComplement w.sizeof x.toInt

@[simp] theorem length_encode {w : Width} (x : IntN w) : (encode x).length = w.sizeof :=
  length_beBytes _ _

theorem encode_eq {w : Width} (x : IntN w) : encode x = beBytes w.sizeof x.toNat :=
  (beBytes_toNat x).symm

/-- A byte alone is its own encoding, on either machine. -/
theorem memory_int8 (x : IntN .w8) : host.memory x = encode x := by
  have hone : host.memory x = leBytes 1 x.toNat := by cases host <;> rfl
  rw [hone, encode_eq, ← reverse_leBytes]
  rfl

theorem appendIntN_eq (w : Width) (x : IntN w) : appendIntN host w x = append (encode x) := by
  cases w with
  | w8 => rw [appendIntN, appendInt8, memory_int8]
  | w16 => rw [appendIntN, appendInt16, appendInt, host.memory_htobe, encode_eq]
  | w32 => rw [appendIntN, appendInt32, appendInt, host.memory_htobe, encode_eq]
  | w64 => rw [appendIntN, appendInt64, appendInt, host.memory_htobe, encode_eq]

theorem prependIntN_eq (w : Width) (x : IntN w) : prependIntN host w x = prepend (encode x) := by
  cases w with
  | w8 => rw [prependIntN, prependInt8, memory_int8]
  | w16 => rw [prependIntN, prependInt16, prependInt, host.memory_htobe, encode_eq]
  | w32 => rw [prependIntN, prependInt32, prependInt, host.memory_htobe, encode_eq]
  | w64 => rw [prependIntN, prependInt64, prependInt, host.memory_htobe, encode_eq]

/-- Peeking at the front integer. -/
theorem peekIntN_apply {w : Width} {x : IntN w} {b : Buffer Byte} (h : b.Wf) {rest : List Byte}
    (hread : b.readable = encode x ++ rest) :
    w.sizeof ≤ b.readableBytes ∧
      copyOut b.readerIndex w.sizeof b = ⟨.ok (encode x), b, []⟩ := by
  have hlen := h.length_readable
  rw [hread, List.length_append, length_encode] at hlen
  have hle : w.sizeof ≤ b.readableBytes := by omega
  have hout : b.readerIndex + w.sizeof ≤ b.buffer.length := by
    have hr := h.reader_le
    have hw := h.writer_le
    rw [readableBytes] at hle
    omega
  have htake : (b.buffer.drop b.readerIndex).take w.sizeof = b.readable.take w.sizeof := by
    rw [Buffer.readable, List.take_take, Nat.min_eq_left hle]
  refine ⟨hle, ?_⟩
  rw [copyOut_apply hout, htake, hread, List.take_left' (length_encode x)]

/-- **Reading the front integer** returns it and drops its bytes. -/
theorem readIntN_spec {w : Width} {x : IntN w} {b : Buffer Byte} (h : b.Wf) {rest : List Byte}
    (hread : b.readable = encode x ++ rest) :
    ∃ b', readIntN host w b = ⟨.ok x, b', []⟩ ∧ b'.Wf ∧ b'.readable = rest := by
  obtain ⟨hle, hcopy⟩ := peekIntN_apply h hread
  have hlen : w.sizeof ≤ b.readable.length := by rwa [h.length_readable]
  obtain ⟨b', hb', hwf, hrest⟩ := retrieve_spec h hlen
  rw [hread, List.drop_left' (length_encode x)] at hrest
  have hretrieve : retrieveInt w b = ⟨.ok (), b', []⟩ := indices_apply hb'
  -- a word is converted, a byte is not
  have hword : host.betoh (host.ofMemory (encode x)) = x := by
    rw [encode_eq]
    exact host.betoh_ofMemory x
  have hpeek : peekInt host w b = ⟨.ok x, b, []⟩ := by
    rw [peekInt, Act.get_bind, Act.check_pos _ hle, Act.pure_bind, Act.bind_ok hcopy, hword]
    rfl
  refine ⟨b', ?_, hwf, hrest⟩
  cases w with
  | w8 =>
    have hbyte : host.ofMemory (encode x) = x := by
      rw [← memory_int8 host]
      exact host.ofMemory_memory x
    have hpeek8 : peekInt8 host b = ⟨.ok x, b, []⟩ := by
      have hone : copyOut b.readerIndex 1 b = ⟨.ok (encode x), b, []⟩ := hcopy
      rw [peekInt8, Act.get_bind, Act.check_pos _ hle, Act.pure_bind, Act.bind_ok hone, hbyte]
      rfl
    rw [readIntN, readInt8, Act.bind_ok hpeek8, Act.bind_ok hretrieve]
    rfl
  | w16 =>
    rw [readIntN, readInt16, peekInt16, Act.bind_ok hpeek, Act.bind_ok hretrieve]
    rfl
  | w32 =>
    rw [readIntN, readInt32, peekInt32, Act.bind_ok hpeek, Act.bind_ok hretrieve]
    rfl
  | w64 =>
    rw [readIntN, readInt64, peekInt64, Act.bind_ok hpeek, Act.bind_ok hretrieve]
    rfl

end Buffer.Checked

open Buffer.Checked (encode appendIntN readIntN prependIntN)

/-! ## Items -/

/-- An integer with its width. -/
structure TaggedInt where
  width : Width
  val : IntN width
  deriving DecidableEq

/-- What a buffer holds: bytes that are no part of an integer, and integers. -/
inductive Item
  | raw (bytes : List Byte)
  | int (v : TaggedInt)
  deriving DecidableEq

namespace Item

def bytes : Item → List Byte
  | raw l => l
  | int v => encode v.val

def int? : Item → Option TaggedInt
  | raw _ => none
  | int v => some v

end Item

/-- The bytes of the items, back to back. -/
def bytesOf (items : List Item) : List Byte := items.flatMap Item.bytes

/-- The integers among them. -/
def intsOf (items : List Item) : List TaggedInt := items.filterMap Item.int?

@[simp] theorem bytesOf_nil : bytesOf [] = [] := rfl

@[simp] theorem bytesOf_cons (item : Item) (items : List Item) :
    bytesOf (item :: items) = item.bytes ++ bytesOf items := rfl

@[simp] theorem bytesOf_append (l l' : List Item) : bytesOf (l ++ l') = bytesOf l ++ bytesOf l' :=
  List.flatMap_append

@[simp] theorem intsOf_append (l l' : List Item) : intsOf (l ++ l') = intsOf l ++ intsOf l' :=
  List.filterMap_append

@[simp] theorem intsOf_raw (l : List Byte) (items : List Item) :
    intsOf (.raw l :: items) = intsOf items := rfl

@[simp] theorem intsOf_int (v : TaggedInt) (items : List Item) :
    intsOf (.int v :: items) = v :: intsOf items := rfl

/-- The items without their first `n` bytes, if these are no part of an integer. -/
def dropRaw : ℕ → List Item → Option (List Item)
  | 0, items => some items
  | _ + 1, [] => none
  | _ + 1, .int _ :: _ => none
  | n + 1, .raw l :: items =>
    if n + 1 ≤ l.length then some (.raw (l.drop (n + 1)) :: items)
    else dropRaw (n + 1 - l.length) items

/-- The integer in front, and the items after it. -/
def frontInt : List Item → Option (TaggedInt × List Item)
  | [] => none
  | .raw [] :: items => frontInt items
  | .raw (_ :: _) :: _ => none
  | .int v :: items => some (v, items)

theorem dropRaw_spec {n : ℕ} {items rest : List Item} (h : dropRaw n items = some rest) :
    bytesOf rest = (bytesOf items).drop n ∧ intsOf rest = intsOf items := by
  induction n, items using dropRaw.induct with
  | case1 items =>
    rw [dropRaw] at h
    obtain rfl := Option.some.inj h
    exact ⟨rfl, rfl⟩
  | case2 n => cases h
  | case3 n v items => cases h
  | case4 n l items hle =>
    rw [dropRaw, if_pos hle] at h
    obtain rfl := Option.some.inj h
    refine ⟨?_, rfl⟩
    rw [bytesOf_cons, bytesOf_cons]
    exact (List.drop_append_of_le_length hle).symm
  | case5 n l items hle ih =>
    rw [dropRaw, if_neg hle] at h
    obtain ⟨hbytes, hints⟩ := ih h
    refine ⟨?_, hints⟩
    have hskip : l.drop (n + 1) = [] := List.drop_eq_nil_of_le (by omega)
    rw [hbytes, bytesOf_cons, List.drop_append]
    simp only [Item.bytes, hskip, List.nil_append]

theorem frontInt_spec {items rest : List Item} {v : TaggedInt}
    (h : frontInt items = some (v, rest)) :
    bytesOf items = encode v.val ++ bytesOf rest ∧ intsOf items = v :: intsOf rest := by
  induction items using frontInt.induct with
  | case1 => cases h
  | case2 items ih => exact ih h
  | case3 => cases h
  | case4 v' items =>
    obtain ⟨rfl, rfl⟩ := Prod.mk.inj (Option.some.inj h)
    exact ⟨rfl, rfl⟩

/-! ## Operations on the items -/

/-- What an operation on the bytes of the buffer `b` makes of the items. -/
def BufferOp.items (b : Buffer Byte) (items : List Item) : BufferOp Byte → Option (List Item)
  | append data | readFd (.ok data) => some (items ++ [.raw data])
  | retrieve len | retrieveAsString len => dropRaw len items
  | retrieveUntil pos => dropRaw (pos - b.readerIndex) items
  | retrieveAll => dropRaw b.readableBytes items
  | prepend data => some (.raw data :: items)
  | beginWrite _ | readFd (.err _) => some items
  | hasWritten len => some (items ++ [.raw (b.spare.take len)])

/-- The operations of the integers, and those of the bytes. -/
inductive CodecOp
  | appendInt (v : TaggedInt)
  | readInt (w : Width)
  | bytes (op : BufferOp Byte)

/-- What the caller gets: an integer read, or a string. -/
inductive CodecOut
  | int (v : TaggedInt)
  | string (s : List Byte)
  deriving DecidableEq

def CodecOut.int? : CodecOut → Option TaggedInt
  | int v => some v
  | string _ => none

namespace CodecOp

def exec (host : Endian) : CodecOp → Act Abort CodecOut (Buffer Byte) Unit
  | appendInt v => (appendIntN host v.width v.val).mapTrace .string
  | readInt w => do
    let x ← (readIntN host w).mapTrace .string
    Act.emit (.int ⟨w, x⟩)
  | bytes op => op.exec.mapTrace .string

/-- What an operation makes of the items, if it may be called on them: an integer is read when it
is in front, with its width. -/
def items (b : Buffer Byte) (its : List Item) : CodecOp → Option (List Item)
  | appendInt v => some (its ++ [.int v])
  | readInt w =>
    match frontInt its with
    | some (v, rest) => if v.width = w then some rest else none
    | none => none
  | bytes op => op.items b its

/-- What the operations on the bytes ask of their arguments. -/
def Pre (b : Buffer Byte) : CodecOp → Prop
  | appendInt _ | readInt _ => True
  | bytes op => op.Pre b

instance (b : Buffer Byte) : ∀ op : CodecOp, Decidable (op.Pre b)
  | appendInt _ | readInt _ => isTrue trivial
  | bytes op => inferInstanceAs (Decidable (op.Pre b))

/-- The integer it puts in. -/
def appended : CodecOp → List TaggedInt
  | appendInt v => [v]
  | readInt _ | bytes _ => []

end CodecOp

/-- An operation on the bytes is one on the items. -/
theorem BufferOp.items_spec {b : Buffer Byte} (hwf : b.Wf) {its rest : List Item}
    (hread : b.readable = bytesOf its) {op : BufferOp Byte} (h : op.items b its = some rest) :
    bytesOf rest = op.queue b b.readable ∧ intsOf rest = intsOf its := by
  rw [hread]
  cases op with
  | append data =>
    obtain rfl := Option.some.inj h
    exact ⟨by simp [queue, Item.bytes], by simp [intsOf, Item.int?]⟩
  | retrieve len => exact dropRaw_spec h
  | retrieveUntil pos => exact dropRaw_spec h
  | retrieveAll =>
    obtain ⟨hbytes, hints⟩ := dropRaw_spec h
    refine ⟨?_, hints⟩
    rw [hbytes, ← hread, ← hwf.length_readable, List.drop_length]
    rfl
  | retrieveAsString len => exact dropRaw_spec h
  | prepend data =>
    obtain rfl := Option.some.inj h
    exact ⟨rfl, rfl⟩
  | beginWrite data =>
    obtain rfl := Option.some.inj h
    exact ⟨rfl, rfl⟩
  | hasWritten len =>
    obtain rfl := Option.some.inj h
    exact ⟨by simp [queue, Item.bytes], by simp [intsOf, Item.int?]⟩
  | readFd r =>
    cases r with
    | ok received =>
      obtain rfl := Option.some.inj h
      exact ⟨by simp [queue, Item.bytes], by simp [intsOf, Item.int?]⟩
    | err e =>
      obtain rfl := Option.some.inj h
      exact ⟨rfl, rfl⟩

/-- What one operation does: it returns, keeps the buffer well-formed, leaves the bytes of the items
that are left, and returns the integer that has gone from them. -/
structure CodecOp.Done (host : Endian) (op : CodecOp) (b : Buffer Byte) (its rest : List Item) :
    Prop where
  ok : (op.exec host b).val = .ok ()
  wf : (op.exec host b).state.Wf
  readable : (op.exec host b).state.readable = bytesOf rest
  ints : (op.exec host b).trace.filterMap CodecOut.int? ++ intsOf rest = intsOf its ++ op.appended

/-- The calls on bytes read no integers. -/
theorem int?_string (l : List (List Byte)) :
    (l.map CodecOut.string).filterMap CodecOut.int? = [] := by
  induction l with
  | nil => rfl
  | cons s l ih => exact ih

/-- **Every operation that may be called** on the items does what it does to them. -/
theorem CodecOp.done (host : Endian) {b : Buffer Byte} (hwf : b.Wf) {its rest : List Item}
    (hread : b.readable = bytesOf its) {op : CodecOp} (hpre : op.Pre b)
    (hits : op.items b its = some rest) : op.Done host b its rest := by
  cases op with
  | appendInt v =>
    obtain rfl := Option.some.inj hits
    have hdone : (BufferOp.append (encode v.val)).Done b := BufferOp.done hwf trivial
    have hexec : (appendInt v).exec host b =
        ((BufferOp.append (encode v.val)).exec.mapTrace .string) b := by
      rw [exec, Checked.appendIntN_eq, BufferOp.exec]
    constructor
    · rw [hexec]
      exact hdone.ok
    · rw [hexec]
      exact hdone.wf
    · rw [hexec]
      refine hdone.readable.trans ?_
      simp [BufferOp.queue, hread, Item.bytes]
    · have htrace := hdone.returned
      rw [hexec]
      simp only [Act.mapTrace, htrace, BufferOp.returned, List.map_nil, List.filterMap_nil,
        List.nil_append, intsOf_append]
      rfl
  | readInt w =>
    rw [items] at hits
    split at hits
    · rename_i v after hfront
      split at hits
      · rename_i hw
        subst hw
        obtain rfl := Option.some.inj hits
        obtain ⟨hbytes, hints⟩ := frontInt_spec hfront
        rw [hbytes] at hread
        obtain ⟨b', hb', hwf', hrest⟩ := Checked.readIntN_spec host hwf hread
        have hexec : (readInt v.width).exec host b = ⟨.ok (), b', [.int v]⟩ := by
          rw [exec, Act.bind_ok (Act.mapTrace_apply hb' _)]
          rfl
        constructor
        · rw [hexec]
        · rw [hexec]
          exact hwf'
        · rw [hexec]
          exact hrest
        · rw [hexec, hints]
          simp [appended, CodecOut.int?]
      · cases hits
    · cases hits
  | bytes op =>
    have hdone := BufferOp.done hwf hpre
    obtain ⟨hbytes, hints⟩ := BufferOp.items_spec hwf hread hits
    constructor
    · exact hdone.ok
    · exact hdone.wf
    · exact hdone.readable.trans hbytes.symm
    · show ((op.exec b).trace.map CodecOut.string).filterMap CodecOut.int? ++ intsOf rest = _
      rw [int?_string, hints]
      exact (List.append_nil _).symm

/-! ## Any run -/

abbrev CodecCall := Call CodecOp Abort CodecOut (Buffer Byte)

/-- The items after the calls, from an empty buffer. -/
def itemsOf (calls : List CodecCall) : List Item :=
  calls.foldl (fun its call => (call.input.items call.before its).getD its) []

/-- The integers put in, in order. -/
def appendedInts (calls : List CodecCall) : List TaggedInt := calls.flatMap (·.input.appended)

/-- The integers the calls returned, in order. -/
def readInts (calls : List CodecCall) : List TaggedInt := (traceOf calls).filterMap CodecOut.int?

/-- Integers are read with the widths they were put in with, and not cut; the bytes are used as
their operations ask. -/
def CodecAllowed (calls : List CodecCall) (call : CodecCall) : Prop :=
  call.input.Pre call.before ∧ (call.input.items call.before (itemsOf calls)).isSome

instance (calls : List CodecCall) (call : CodecCall) : Decidable (CodecAllowed calls call) :=
  inferInstanceAs (Decidable (_ ∧ _))

section Runs

variable {host : Endian} {initialSize : ℕ} {calls : List CodecCall} {b : Buffer Byte}

theorem itemsOf_of_run
    (h : Run (CodecOp.exec host) CodecAllowed (Buffer.init initialSize) calls b) :
    b.Wf ∧ b.readable = bytesOf (itemsOf calls) ∧
      readInts calls ++ intsOf (itemsOf calls) = appendedInts calls := by
  refine h.invariant (I := fun calls b => b.Wf ∧ b.readable = bytesOf (itemsOf calls) ∧
    readInts calls ++ intsOf (itemsOf calls) = appendedInts calls)
    ⟨init_wf _, readable_init _, rfl⟩ ?_
  rintro calls b op ⟨hwf, hread, hints⟩ ⟨hpre, hsome⟩ -
  obtain ⟨rest, hrest⟩ := Option.isSome_iff_exists.1 hsome
  have hrest' : op.items b (itemsOf calls) = some rest := hrest
  have hdone : op.Done host b (itemsOf calls) rest := CodecOp.done host hwf hread hpre hrest'
  have hitems : itemsOf (calls ++ [Call.make (CodecOp.exec host) op b]) = rest := by
    rw [itemsOf, List.foldl_append]
    simp only [List.foldl_cons, List.foldl_nil, Call.make_input, Call.make_before]
    rw [← itemsOf, hrest', Option.getD_some]
  have hreads : readInts (calls ++ [Call.make (CodecOp.exec host) op b]) =
      readInts calls ++ (op.exec host b).trace.filterMap CodecOut.int? := by
    rw [readInts, traceOf_append, traceOf_singleton, List.filterMap_append]
    rfl
  refine ⟨hdone.wf, ?_, ?_⟩
  · rw [hitems]
    exact hdone.readable
  · rw [hitems, hreads, List.append_assoc, hdone.ints, ← List.append_assoc, hints]
    simp [appendedInts]

/-- **Integers come out as they went in.** However integers and bytes are put into a buffer and
taken out of it, the integers read are those put in, in order, up to the ones still unread; the
readable bytes are the encodings of these, back to back, between the bytes put in beside them; no
further call that may be made fails. An integer prepended is read next, and leaves what was
readable. -/
theorem integers_round_trip
    (h : Run (CodecOp.exec host) CodecAllowed (Buffer.init initialSize) calls b) :
    readInts calls ++ intsOf (itemsOf calls) = appendedInts calls ∧
      b.readable = bytesOf (itemsOf calls) ∧
      (∀ op, CodecAllowed calls (Call.make (CodecOp.exec host) op b) →
        (op.exec host b).val = .ok ()) ∧
      ∀ (w : Width) (x : IntN w), w.sizeof ≤ b.prependableBytes →
        ∃ b₁ b₂, prependIntN host w x b = ⟨.ok (), b₁, []⟩ ∧
          b₁.readable = encode x ++ b.readable ∧
          readIntN host w b₁ = ⟨.ok x, b₂, []⟩ ∧ b₂.readable = b.readable := by
  obtain ⟨hwf, hread, hints⟩ := itemsOf_of_run h
  refine ⟨hints, hread, ?_, ?_⟩
  · rintro op ⟨hpre, hsome⟩
    obtain ⟨rest, hrest⟩ := Option.isSome_iff_exists.1 hsome
    exact (CodecOp.done host hwf hread hpre hrest).ok
  · intro w x hroom
    have hlen : (encode x).length ≤ b.prependableBytes := by rwa [Checked.length_encode]
    obtain ⟨b₁, hb₁, hwf₁, hread₁⟩ := prepend_spec hwf hlen
    obtain ⟨b₂, hb₂, -, hread₂⟩ := Checked.readIntN_spec host hwf₁ hread₁
    rw [← Checked.prependIntN_eq host w x] at hb₁
    exact ⟨b₁, b₂, hb₁, hread₁, hb₂, hread₂⟩

end Runs

/-- Integers of three widths behind two bytes, in a buffer that starts with room for four and is
compacted and grown on the way. -/
theorem integers_round_trip_of_three :
    ∃ calls b, Run (CodecOp.exec .little) CodecAllowed (Buffer.init 4) calls b ∧
      (readInts calls ++ intsOf (itemsOf calls) = appendedInts calls ∧
        b.readable = bytesOf (itemsOf calls) ∧
        (∀ op, CodecAllowed calls (Call.make (CodecOp.exec .little) op b) →
          (op.exec .little b).val = .ok ()) ∧
        ∀ (w : Width) (x : IntN w), w.sizeof ≤ b.prependableBytes →
          ∃ b₁ b₂, prependIntN .little w x b = ⟨.ok (), b₁, []⟩ ∧
            b₁.readable = encode x ++ b.readable ∧
            readIntN .little w b₁ = ⟨.ok x, b₂, []⟩ ∧ b₂.readable = b.readable) ∧
      readInts calls = [⟨.w16, -2⟩, ⟨.w64, -70000⟩] ∧ b.readable = [0xff, 7, 8] := by
  have hrun : Run (CodecOp.exec .little) CodecAllowed (Buffer.init 4) _ _ :=
    run_replay [.bytes (.append [1, 2]), .appendInt ⟨.w16, -2⟩, .bytes (.retrieveAsString 2),
      .appendInt ⟨.w64, -70000⟩, .readInt .w16, .appendInt ⟨.w8, -1⟩, .readInt .w64,
      .bytes (.readFd (.ok [7, 8]))] (by decide +kernel)
  exact ⟨_, _, hrun, integers_round_trip hrun, by decide +kernel, by decide +kernel⟩

end Cannet.Net
