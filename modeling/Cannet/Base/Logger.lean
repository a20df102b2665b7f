import Cannet.Base.LogStream.Convert
import Cannet.Base.LogStream.Insert

/-!
# Records of the log

`Logger` of `Logger.h`. Its constructor puts the time into a stream of `kSmallBuffer` bytes, the
user puts the message behind it, and the destructor puts the trailer ` -- file:line` behind that,
with five insertions of its own, and passes the whole to `output`. An insertion that does not find
its room is left out, and the trailer is not reserved any: `record_terminated_iff` says after which
messages it is there.
-/

namespace Cannet.Base

open Foundations

/-- What `operator<<` of the stream takes. -/
inductive Insertion
  | string (op : StringInsertion)
  | integer (T : IntType) (val : BitVec T.bits)
  | pointer (val : BitVec 64)
  /-- A `double`, with the text that `snprintf` makes of it in `kMaxNumericSize` bytes. -/
  | double (text : List Char) (short : text.length < kMaxNumericSize)

namespace FixedBuffer

variable {SIZE : ℕ}

/-- `operator<<(double)`; `operator<<(float)` casts to it. -/
def insertDouble (b : FixedBuffer SIZE Char) (text : List Char) :
    Option (FixedBuffer SIZE Char) :=
  if kMaxNumericSize ≤ b.avail then b.write (text ++ [nul]) text.length else some b

def insert (b : FixedBuffer SIZE Char) : Insertion → Option (FixedBuffer SIZE Char)
  | .string op => b.insertString op
  | .integer T val => b.insertInteger T val
  | .pointer val => b.insertPointer val
  | .double text _ => b.insertDouble text

/-- Insertions one after another. -/
def insertAll (b : FixedBuffer SIZE Char) : List Insertion → Option (FixedBuffer SIZE Char)
  | [] => some b
  | op :: ops => do (← b.insert op).insertAll ops

end FixedBuffer

abbrev LogStream := FixedBuffer kSmallBuffer Char

/-- The C string that `strftime` leaves in its 26 bytes. -/
abbrev TimeText := { str_t : List Char // str_t.length < 26 }

namespace Logger

structure Impl where
  stream_ : LogStream
  line_ : BitVec 32
  basename_ : List Char

def Impl.formatTime (impl : Impl) (str_t : TimeText) : Option Impl := do
  return { impl with stream_ := ← impl.stream_.insertString (.cString (some str_t.val)) }

/-- The constructor, at the time `str_t`. -/
def make (fileName : List Char) (line : BitVec 32) (str_t : TimeText) : Option Impl :=
  Impl.formatTime ⟨.empty, line, fileName⟩ str_t

/-- `stream() << …`, for as long as the logger lives. -/
def Impl.insertAll (impl : Impl) (ops : List Insertion) : Option Impl := do
  return { impl with stream_ := ← impl.stream_.insertAll ops }

/-- The text between a message and its origin. -/
def separator : List Char := [' ', '-', '-', ' ']

/-- `~Logger`: what is passed to `output`. -/
def Impl.destroy (impl : Impl) : Option (List Char) := do
  let stream ← impl.stream_.insertAll
    [.string (.cString (some separator)), .string (.string impl.basename_), .string (.char ':'),
      .integer .int impl.line_, .string (.char '\n')]
  return stream.data

/-- What should end a record. -/
def trailer (basename : List Char) (line : BitVec 32) : List Char :=
  separator ++ basename ++ [':'] ++ decimal (IntType.int.val line) ++ ['\n']

end Logger

/-! ## Insertions as pieces -/

theorem length_integer_lt (T : IntType) (val : BitVec T.bits) :
    (decimal (T.val val)).length < kMaxNumericSize := by
  have hlen := length_decimal_le (T.natAbs_val_lt val)
  rw [kMaxNumericSize]
  omega

theorem length_pointer_lt (val : BitVec 64) :
    ('0' :: 'x' :: numeralChars 16 val.toNat).length < kMaxNumericSize := by
  have hlen := length_hex_le val
  rw [List.length_cons, List.length_cons, kMaxNumericSize]
  omega

/-- Numbers ask for the same room whatever their length. -/
def Insertion.piece : Insertion → Piece Char
  | .string op => op.piece
  | .integer T val => ⟨decimal (T.val val), kMaxNumericSize, length_integer_lt T val⟩
  | .pointer val =>
    ⟨'0' :: 'x' :: numeralChars 16 val.toNat, kMaxNumericSize, length_pointer_lt val⟩
  | .double text short => ⟨text, kMaxNumericSize, short⟩

namespace FixedBuffer

variable {SIZE : ℕ} {b : FixedBuffer SIZE Char}

theorem insertDouble_spec (b : FixedBuffer SIZE Char) {text : List Char}
    (short : text.length < kMaxNumericSize) :
    ∃ b' : FixedBuffer SIZE Char, b.insertDouble text = some b' ∧
      b'.data = if kMaxNumericSize ≤ b.avail then b.data ++ text else b.data := by
  rw [insertDouble]
  split
  · exact write_spec (by omega)
  · exact ⟨b, rfl, rfl⟩

/-- The room of a number, in the terms of the array. -/
theorem ite_avail (b : FixedBuffer SIZE Char) {room : ℕ} (text : List Char)
    (h : text.length < room) :
    (if (room : ℤ) ≤ b.avail then b.data ++ text else b.data) =
      (Piece.mk text room h).put SIZE b.data := by
  have hiff : (room : ℤ) ≤ b.avail ↔ b.data.length + room ≤ SIZE := by
    rw [avail_eq]
    omega
  exact if_congr hiff rfl rfl

/-- **An insertion** puts its piece into the array. -/
theorem insert_spec (b : FixedBuffer SIZE Char) {op : Insertion}
    (hlen : op.piece.text.length < 2 ^ 31) :
    ∃ b' : FixedBuffer SIZE Char, b.insert op = some b' ∧ b'.data = op.piece.put SIZE b.data := by
  cases op with
  | string op =>
    refine b.insertString_spec fun hroom => ?_
    have hint : asInt op.chars.length = op.chars.length := asInt_eq hlen
    rw [hint]
    exact hroom
  | integer T val =>
    obtain ⟨b', hb', hdata⟩ := b.formatInteger_spec (T.natAbs_val_lt val)
    refine ⟨b', ?_, ?_⟩
    · rw [insert, insertInteger_eq]
      exact hb'
    · rw [hdata]
      exact b.ite_avail _ _
  | pointer val =>
    obtain ⟨b', hb', hdata⟩ := b.insertPointer_spec val
    refine ⟨b', hb', ?_⟩
    rw [hdata]
    exact b.ite_avail _ _
  | double text short =>
    obtain ⟨b', hb', hdata⟩ := b.insertDouble_spec short
    refine ⟨b', hb', ?_⟩
    rw [hdata]
    exact b.ite_avail _ _

/-- **Insertions fill the array.** -/
theorem insertAll_spec {ops : List Insertion} (h : ∀ op ∈ ops, op.piece.text.length < 2 ^ 31) :
    ∃ b' : FixedBuffer SIZE Char, b.insertAll ops = some b' ∧
      b'.data = fill SIZE b.data (ops.map Insertion.piece) := by
  induction ops generalizing b with
  | nil => exact ⟨b, rfl, rfl⟩
  | cons op ops ih =>
    obtain ⟨b₁, hop, hdata⟩ := b.insert_spec (h op List.mem_cons_self)
    obtain ⟨b', hops, hfill⟩ := ih (b := b₁) fun op' hop' => h op' (List.mem_cons_of_mem _ hop')
    refine ⟨b', ?_, ?_⟩
    · rw [insertAll, hop]
      exact hops
    · rw [List.map_cons, fill_cons, ← hdata, hfill]

end FixedBuffer

/-! ## Ends of lists -/

section

variable {α : Type} {s l v : List α}

/-- A list that is still the end when something is put behind it repeats what was put there. -/
theorem mem_of_suffix_append (h : s <:+ s ++ v) (hv : v ≠ []) : ∀ c ∈ s, c ∈ v := by
  induction hlen : s.length using Nat.strong_induction_on generalizing s with
  | _ n ih =>
    intro c hc
    by_cases hle : s.length ≤ v.length
    · exact (List.suffix_of_suffix_length_le h (List.suffix_append s v) hle).subset hc
    · obtain ⟨t, rfl⟩ := List.suffix_of_suffix_length_le (List.suffix_append s v) h (by omega)
      have hshort : t.length < n := by
        have hpos := List.length_pos_iff.2 hv
        rw [List.length_append] at hlen
        omega
      obtain ht | hmem := List.mem_append.1 hc
      · exact ih t.length hshort (List.suffix_append_self_iff.1 h) rfl c ht
      · exact hmem

theorem suffix_concat_iff {c d : α} : s ++ [c] <:+ l ++ [d] ↔ s <:+ l ∧ c = d := by
  have hlen : [c].length = [d].length := rfl
  rw [List.suffix_append_inj_of_length_eq hlen, List.singleton_inj]

end

/-! ## The trailer -/

namespace Logger

variable {m x B L : List Char} {line : BitVec 32}

theorem mem_decimal {v : ℤ} {c : Char} (h : c ∈ decimal v) :
    c = '-' ∨ ∃ d < 10, c = digitChar d := by
  have hdigits := (isNumeral_numeralChars (b := 10) (by decide) (by decide) v.natAbs).digits
  rw [decimal] at h
  split at h
  · obtain rfl | h := List.mem_cons.1 h
    · exact .inl rfl
    · exact .inr (hdigits c h)
  · exact .inr (hdigits c h)

/-- Nothing of the trailer around the line number is in it. -/
theorem not_mem_decimal {v : ℤ} {c : Char} (h : c ∈ decimal v) : c ≠ ' ' ∧ c ≠ ':' := by
  obtain rfl | ⟨d, hd, rfl⟩ := mem_decimal h
  · decide
  · interval_cases d <;> decide

theorem decimal_ne_nil (v : ℤ) : decimal v ≠ [] := by
  have hnum := isNumeral_numeralChars (b := 10) (by decide) (by decide) v.natAbs
  rw [decimal]
  split
  · exact List.cons_ne_nil _ _
  · exact hnum.nonempty

/-- A record that lost its line number does not end with the trailer. -/
theorem trailer_not_suffix_colon : ¬trailer B line <:+ x ++ [':'] := by
  intro h
  have hlast := (suffix_concat_iff.1 h).2
  exact absurd hlast (by decide)

theorem trailer_not_suffix_newline : ¬trailer B line <:+ x ++ [':'] ++ ['\n'] := by
  intro h
  obtain ⟨hline, -⟩ := suffix_concat_iff.1 h
  obtain ⟨digits, c, hdecimal⟩ : ∃ digits c, decimal (IntType.int.val line) = digits ++ [c] :=
    ⟨_, _, (List.dropLast_append_getLast (decimal_ne_nil _)).symm⟩
  have hmem : c ∈ decimal (IntType.int.val line) := by
    rw [hdecimal]
    exact List.mem_append_right _ List.mem_cons_self
  rw [hdecimal, ← List.append_assoc] at hline
  exact (not_mem_decimal hmem).2 (suffix_concat_iff.1 hline).2

/-- Nor does one that ends with the text before the origin. -/
theorem trailer_not_suffix_separator : ¬trailer B line <:+ x ++ separator := by
  intro h
  have hsplit : x ++ separator = x ++ [' ', '-', '-'] ++ [' '] := by
    rw [List.append_assoc]
    rfl
  rw [hsplit] at h
  exact absurd (suffix_concat_iff.1 h).2 (by decide)

/-- Nor one that ends with the file. -/
theorem trailer_not_suffix_file : ¬trailer B line <:+ x ++ (separator ++ B) := by
  intro h
  have hsplit : trailer B line =
      (separator ++ B) ++ ([':'] ++ decimal (IntType.int.val line) ++ ['\n']) := by
    simp only [trailer, List.append_assoc]
  have hlen : (separator ++ B).length ≤ (trailer B line).length := by
    rw [hsplit]
    exact (List.prefix_append _ _).length_le
  have hsuffix : separator ++ B <:+ trailer B line :=
    List.suffix_of_suffix_length_le (List.suffix_append _ _) h hlen
  rw [hsplit] at hsuffix
  -- the blank of the separator would be in what comes behind the file
  have hblank := mem_of_suffix_append hsuffix (by simp) ' ' (by simp [separator])
  simp only [List.mem_append, List.mem_singleton] at hblank
  obtain (hcolon | hdecimal) | hnewline := hblank
  · exact absurd hcolon (by decide)
  · exact (not_mem_decimal hdecimal).1 rfl
  · exact absurd hnewline (by decide)

/-- With its line number, a record ends with the trailer if the file is there. -/
theorem trailer_suffix_line :
    trailer B line <:+ x ++ [':'] ++ decimal (IntType.int.val line) ++ ['\n'] ↔
      separator ++ B <:+ x := by
  rw [trailer, List.suffix_append_self_iff, List.suffix_append_self_iff,
    List.suffix_append_self_iff]

variable {SIZE : ℕ}

/-- The last three insertions of the destructor. -/
def linePieces (line : BitVec 32) : List (Piece Char) :=
  [Insertion.piece (.string (.char ':')), Insertion.piece (.integer .int line),
    Insertion.piece (.string (.char '\n'))]

/-- **Behind the file**, the trailer is completed if there is room for a number, and spoilt if there
is room for the colon only. -/
theorem trailer_suffix_fill : trailer B line <:+ fill SIZE x (linePieces line) ↔
    (x.length + 49 ≤ SIZE ∧ separator ++ B <:+ x) ∨
      (SIZE < x.length + 2 ∧ trailer B line <:+ x) := by
  have hdigits : (decimal (IntType.int.val line)).length ≤ 21 :=
    length_decimal_le (IntType.natAbs_val_lt .int line)
  have hcolon : ∀ data : List Char, (Insertion.piece (.string (.char ':'))).put SIZE data =
      if data.length + 2 ≤ SIZE then data ++ [':'] else data := fun _ => rfl
  have hline : ∀ data : List Char, (Insertion.piece (.integer .int line)).put SIZE data =
      if data.length + 48 ≤ SIZE then data ++ decimal (IntType.int.val line) else data :=
    fun _ => rfl
  have hnewline : ∀ data : List Char, (Insertion.piece (.string (.char '\n'))).put SIZE data =
      if data.length + 2 ≤ SIZE then data ++ ['\n'] else data := fun _ => rfl
  rw [linePieces, fill_cons, fill_cons, fill_cons, fill_nil, hcolon]
  by_cases hroom : x.length + 2 ≤ SIZE
  · rw [if_pos hroom, hline]
    by_cases hnumber : x.length + 49 ≤ SIZE
    · have hnumber' : (x ++ [':']).length + 48 ≤ SIZE := by
        rw [List.length_append, List.length_singleton]
        omega
      have hnewline' :
          (x ++ [':'] ++ decimal (IntType.int.val line)).length + 2 ≤ SIZE := by
        rw [List.length_append, List.length_append, List.length_singleton]
        omega
      rw [if_pos hnumber', hnewline, if_pos hnewline', trailer_suffix_line]
      constructor
      · intro h
        exact .inl ⟨hnumber, h⟩
      · rintro (⟨-, h⟩ | ⟨hfull, -⟩)
        · exact h
        · omega
    · have hnumber' : ¬(x ++ [':']).length + 48 ≤ SIZE := by
        rw [List.length_append, List.length_singleton]
        omega
      have hlost : ¬trailer B line <:+
          (Insertion.piece (.string (.char '\n'))).put SIZE (x ++ [':']) := by
        rw [hnewline]
        split
        · exact trailer_not_suffix_newline
        · exact trailer_not_suffix_colon
      rw [if_neg hnumber']
      constructor
      · intro h
        exact absurd h hlost
      · rintro (⟨h, -⟩ | ⟨h, -⟩) <;> omega
  · rw [if_neg hroom, hline, if_neg (by omega), hnewline, if_neg hroom]
    constructor
    · intro h
      exact .inr ⟨by omega, h⟩
    · rintro (⟨h, -⟩ | ⟨-, h⟩)
      · omega
      · exact h

/-- What the five insertions of the destructor put down. -/
def trailerPieces (basename : List Char) (line : BitVec 32) : List (Piece Char) :=
  Insertion.piece (.string (.cString (some separator))) ::
    Insertion.piece (.string (.string basename)) :: linePieces line

/-- The messages after which a record ends with its trailer. -/
inductive Terminated (SIZE : ℕ) (m basename : List Char) (line : BitVec 32) : Prop
  /-- There is room for all of it, with 48 bytes for the line number. -/
  | room (h : m.length + basename.length + 53 ≤ SIZE)
  /-- The file is left out, and the message ends like the file. -/
  | file (h : m.length + 53 ≤ SIZE) (hfile : SIZE ≤ m.length + basename.length + 4)
      (hrepeat : separator ++ basename <:+ m ++ separator)
  /-- All of it is left out, and the message ends with a trailer of its own. -/
  | full (h : SIZE ≤ m.length + 1) (hrepeat : trailer basename line <:+ m)
  /-- All but the file is left out, and the message with the file ends with a trailer. -/
  | rest (h : m.length + basename.length + 1 = SIZE) (hsep : SIZE ≤ m.length + 4)
      (hrepeat : trailer basename line <:+ m ++ basename)

/-- **Which of the insertions survive** depends on how full the buffer is. -/
theorem trailer_suffix_record :
    trailer B line <:+ fill SIZE m (trailerPieces B line) ↔ Terminated SIZE m B line := by
  have hsep : ∀ data : List Char,
      (Insertion.piece (.string (.cString (some separator)))).put SIZE data =
        if data.length + 5 ≤ SIZE then data ++ separator else data := fun _ => rfl
  have hfile : ∀ data : List Char, (Insertion.piece (.string (.string B))).put SIZE data =
      if data.length + (B.length + 1) ≤ SIZE then data ++ B else data := fun _ => rfl
  have hlen : (m ++ separator).length = m.length + 4 := List.length_append
  rw [trailerPieces, fill_cons, fill_cons, trailer_suffix_fill, hsep]
  by_cases hroom : m.length + 5 ≤ SIZE
  · rw [if_pos hroom, hfile, hlen]
    by_cases hroom' : m.length + 4 + (B.length + 1) ≤ SIZE
    · rw [if_pos hroom', List.length_append, hlen, List.append_assoc]
      constructor
      · rintro (⟨h, -⟩ | ⟨-, h⟩)
        · exact .room (by omega)
        · exact absurd h trailer_not_suffix_file
      · rintro (h | ⟨-, h, -⟩ | ⟨h, -⟩ | ⟨-, h, -⟩)
        · exact .inl ⟨by omega, List.suffix_append _ _⟩
        all_goals omega
    · rw [if_neg hroom', hlen]
      constructor
      · rintro (⟨h, hrepeat⟩ | ⟨-, h⟩)
        · exact .file (by omega) (by omega) hrepeat
        · exact absurd h trailer_not_suffix_separator
      · rintro (h | ⟨h, -, hrepeat⟩ | ⟨h, -⟩ | ⟨-, h, -⟩)
        · omega
        · exact .inl ⟨by omega, hrepeat⟩
        all_goals omega
  · rw [if_neg hroom, hfile]
    by_cases hroom' : m.length + (B.length + 1) ≤ SIZE
    · rw [if_pos hroom', List.length_append]
      constructor
      · rintro (⟨h, -⟩ | ⟨h, hrepeat⟩)
        · omega
        · exact .rest (by omega) (by omega) hrepeat
      · rintro (h | ⟨h, -, -⟩ | ⟨h, hrepeat⟩ | ⟨h, -, hrepeat⟩)
        · omega
        · omega
        · have hnil : B = [] := List.eq_nil_of_length_eq_zero (by omega)
          subst hnil
          exact .inr ⟨by omega, by rwa [List.append_nil]⟩
        · exact .inr ⟨by omega, hrepeat⟩
    · rw [if_neg hroom']
      constructor
      · rintro (⟨h, -⟩ | ⟨h, hrepeat⟩)
        · omega
        · exact .full (by omega) hrepeat
      · rintro (h | ⟨h, -, -⟩ | ⟨h, hrepeat⟩ | ⟨h, -, -⟩)
        · omega
        · omega
        · exact .inr ⟨by omega, hrepeat⟩
        · omega

/-! ## A logger's life -/

/-- The stream when the message is in it. -/
def message (str_t : TimeText) (ops : List Insertion) : List Char :=
  fill kSmallBuffer []
    (Insertion.piece (.string (.cString (some str_t.val))) :: ops.map Insertion.piece)

/-- The constructor and the insertions of the user. -/
theorem message_spec (fileName : List Char) (line : BitVec 32) (str_t : TimeText)
    {ops : List Insertion} (h : ∀ op ∈ ops, op.piece.text.length < 2 ^ 31) :
    ∃ impl : Impl, (make fileName line str_t).bind (·.insertAll ops) = some impl ∧
      impl.stream_.data = message str_t ops ∧ impl.line_ = line ∧ impl.basename_ = fileName := by
  have htime : (Insertion.piece (.string (.cString (some str_t.val)))).text.length < 2 ^ 31 :=
    str_t.property.trans (by decide)
  obtain ⟨b₁, hb₁, hdata⟩ := (FixedBuffer.empty : LogStream).insert_spec htime
  obtain ⟨b₂, hb₂, hfill⟩ := FixedBuffer.insertAll_spec (b := b₁) h
  have hb₁' : FixedBuffer.empty.insertString (.cString (some str_t.val)) = some b₁ := hb₁
  have hmake : make fileName line str_t = some ⟨b₁, line, fileName⟩ := by
    rw [make, Impl.formatTime, hb₁']
    rfl
  have hops : Impl.insertAll ⟨b₁, line, fileName⟩ ops = some ⟨b₂, line, fileName⟩ := by
    rw [Impl.insertAll, hb₂]
    rfl
  refine ⟨⟨b₂, line, fileName⟩, ?_, ?_, rfl, rfl⟩
  · rw [hmake]
    exact hops
  · rw [message, fill_cons, hfill, hdata]
    rfl

/-- The destructor. -/
theorem Impl.destroy_spec (impl : Impl) (hfile : impl.basename_.length < kSmallBuffer) :
    impl.destroy =
      some (fill kSmallBuffer impl.stream_.data (trailerPieces impl.basename_ impl.line_)) := by
  have hlens : ∀ op ∈ [.string (.cString (some separator)), .string (.string impl.basename_),
      .string (.char ':'), .integer .int impl.line_, .string (.char '\n')],
      (Insertion.piece op).text.length < 2 ^ 31 := by
    have hline : (decimal (IntType.int.val impl.line_)).length ≤ 21 :=
      length_decimal_le (IntType.natAbs_val_lt .int impl.line_)
    simp only [List.mem_cons, List.not_mem_nil, or_false, forall_eq_or_imp, forall_eq]
    refine ⟨by decide, ?_, by decide, ?_, by decide⟩
    · exact hfile.trans (by decide)
    · exact hline.trans_lt (by decide)
  obtain ⟨b, hb, hdata⟩ := FixedBuffer.insertAll_spec (b := impl.stream_) hlens
  rw [destroy, hb]
  exact congrArg some hdata

end Logger

open Logger

/-- **Which records are terminated.** Whatever is inserted into the stream of a logger, by the
constructor, the user and the destructor, stays in its buffer, and a record is passed to `output`.
It ends with the trailer if and only if the message leaves room for the file and 53 bytes more, or
happens to end with what is left out of the trailer. -/
theorem record_terminated_iff (fileName : List Char) (line : BitVec 32) (str_t : TimeText)
    (ops : List Insertion) (hfile : fileName.length < kSmallBuffer)
    (hops : ∀ op ∈ ops, op.piece.text.length < 2 ^ 31) :
    ∃ impl record, (make fileName line str_t).bind (·.insertAll ops) = some impl ∧
      impl.stream_.data = message str_t ops ∧ impl.destroy = some record ∧
      (trailer fileName line <:+ record ↔
        Terminated kSmallBuffer (message str_t ops) fileName line) := by
  obtain ⟨impl, himpl, hdata, rfl, rfl⟩ := message_spec fileName line str_t hops
  refine ⟨impl, _, himpl, hdata, impl.destroy_spec hfile, ?_⟩
  rw [hdata]
  exact trailer_suffix_record

theorem record_terminated_iff_of_char :
    ['m', '.', 'c'].length < kSmallBuffer ∧
    (∀ op ∈ [Insertion.string (.char 'x')], op.piece.text.length < 2 ^ 31) ∧
    ∃ impl record, (make ['m', '.', 'c'] 7 ⟨['0', '\n'], by decide⟩).bind
        (·.insertAll [.string (.char 'x')]) = some impl ∧
      impl.stream_.data = message ⟨['0', '\n'], by decide⟩ [.string (.char 'x')] ∧
      impl.destroy = some record ∧
      (trailer ['m', '.', 'c'] 7 <:+ record ↔ Terminated kSmallBuffer
        (message ⟨['0', '\n'], by decide⟩ [.string (.char 'x')]) ['m', '.', 'c'] 7) :=
  ⟨by decide, by decide, record_terminated_iff ['m', '.', 'c'] 7 ⟨['0', '\n'], by decide⟩
    [.string (.char 'x')] (by decide) (by decide)⟩

/-- The time of a record. -/
def noon : TimeText :=
  ⟨['2', '0', '2', '4', '-', '0', '5', '-', '0', '1', ' ', '1', '2', ':', '0', '0', ':', '0', '0',
    '\n'], by decide⟩

/-- **A message that fills the line** leaves no room for anything of the trailer. -/
theorem full_line_not_terminated :
    ∃ impl record, (make ['m', '.', 'c'] 7 noon).bind
        (·.insertAll [.string (.string (List.replicate 3979 'x'))]) = some impl ∧
      impl.destroy = some record ∧ ¬trailer ['m', '.', 'c'] 7 <:+ record := by
  obtain ⟨s, hs, hlen⟩ : ∃ s, List.replicate 3979 'x' = s ++ ['x'] ∧ s.length = 3978 :=
    ⟨_, List.replicate_succ', List.length_replicate⟩
  rw [hs]
  have hlen' : (s ++ ['x']).length = 3979 := by rw [List.length_append, hlen]; rfl
  have hops : ∀ op ∈ [Insertion.string (.string (s ++ ['x']))], op.piece.text.length < 2 ^ 31 := by
    intro op hop
    rw [List.mem_singleton.1 hop]
    exact hlen'.trans_lt (by decide)
  have hmessage : message noon [.string (.string (s ++ ['x']))] = noon.val ++ s ++ ['x'] := by
    have htime : ([] : List Char).length +
        (Insertion.piece (.string (.cString (some noon.val)))).room ≤ kSmallBuffer := by decide
    have hfits : noon.val.length +
        (Insertion.piece (.string (.string (s ++ ['x'])))).room ≤ kSmallBuffer := by
      show noon.val.length + ((s ++ ['x']).length + 1) ≤ kSmallBuffer
      rw [hlen']
      decide
    rw [message, fill_cons, Piece.put_of_le htime]
    exact (Piece.put_of_le hfits).trans (List.append_assoc _ _ _).symm
  have hfull : (noon.val ++ s ++ ['x']).length = 3999 := by
    rw [List.append_assoc, List.length_append, hlen']
    rfl
  obtain ⟨impl, himpl, hdata, hline, hfile⟩ := message_spec ['m', '.', 'c'] 7 noon hops
  have hshort : impl.basename_.length < kSmallBuffer := by
    rw [hfile]
    decide
  refine ⟨impl, _, himpl, impl.destroy_spec hshort, ?_⟩
  rw [hdata, hline, hfile, trailer_suffix_record, hmessage]
  rintro (h | ⟨h, -, -⟩ | ⟨-, hrepeat⟩ | ⟨h, -, -⟩)
  · rw [hfull] at h
    exact absurd h (by decide)
  · rw [hfull] at h
    exact absurd h (by decide)
  · exact absurd (suffix_concat_iff.1 hrepeat).2 (by decide)
  · rw [hfull] at h
    exact absurd h (by decide)

end Cannet.Base
