import Cannet.Base.LogStream
import Cannet.Foundations.Filling

/-!
# Text in a line

`operator<<` of characters, C strings, strings and `bool`, all of which `append` to the buffer. What
`append` compares with `avail()` is the length as an `int`, what it copies is the length as it is:
from `2 ^ 31` on the two differ, and a piece that does not fit may be taken for one that does. These
are the insertions that break the buffer, and the only ones (`insertions_fit_iff`).
-/

namespace Cannet.Base

open Foundations

/-- An insertion of text. -/
inductive StringInsertion
  | char (val : Char)
  /-- `const char *`, which may be null. -/
  | cString (val : Option (List Char))
  | string (val : List Char)
  | bool (val : Bool)

namespace StringInsertion

/-- The bytes handed to `append`. -/
def chars : StringInsertion → List Char
  | char val => [val]
  | cString (some val) => val
  | cString none => ['(', 'n', 'u', 'l', 'l', ')']
  | string val => val
  | bool val => if val then ['1'] else ['0']

/-- A text is put down if there is more room than it is long. -/
def piece (op : StringInsertion) : Piece Char := ⟨op.chars, op.chars.length + 1, Nat.lt_succ_self _⟩

end StringInsertion

namespace FixedBuffer

variable {SIZE : ℕ}

/-- `operator<<` of `char`, `const char *`, `std::string` and `bool`. -/
def insertString (b : FixedBuffer SIZE Char) (op : StringInsertion) :
    Option (FixedBuffer SIZE Char) :=
  b.append op.chars

/-- Insertions one after another. -/
def insertStrings (b : FixedBuffer SIZE Char) :
    List StringInsertion → Option (FixedBuffer SIZE Char)
  | [] => some b
  | op :: ops => do (← b.insertString op).insertStrings ops

theorem avail_eq (b : FixedBuffer SIZE Char) : b.avail = (SIZE : ℤ) - b.data.length := rfl

end FixedBuffer

/-- The conversions make no length longer. -/
theorem asInt_le (len : ℕ) : asInt len ≤ len := by
  by_cases hlen : len < 2 ^ 31
  · exact Int.le_of_eq (asInt_eq hlen)
  · have hbmod : asInt len < (2 ^ 32 + 1) / 2 := Int.bmod_lt (by decide)
    omega

/-- A length of which the `int` falls short is large. -/
theorem le_of_asInt_lt {len : ℕ} (h : asInt len < len) : 2 ^ 31 ≤ len := by
  by_contra hlt
  rw [asInt_eq (by omega)] at h
  omega

namespace FixedBuffer

variable {SIZE : ℕ} {b b' : FixedBuffer SIZE Char}

/-- **An insertion that is not misjudged** puts its text down as a whole where there is room. -/
theorem insertString_spec (b : FixedBuffer SIZE Char) {op : StringInsertion}
    (h : b.avail ≤ op.chars.length → b.avail ≤ asInt op.chars.length) :
    ∃ b' : FixedBuffer SIZE Char, b.insertString op = some b' ∧
      b'.data = op.piece.put SIZE b.data := by
  have hint := asInt_le op.chars.length
  rw [insertString, append]
  by_cases hroom : b.avail > op.chars.length
  · have hput : b.data.length + op.piece.room ≤ SIZE := by
      rw [avail_eq] at hroom
      show b.data.length + (op.chars.length + 1) ≤ SIZE
      omega
    have hfits : (b.data ++ op.chars).length ≤ SIZE := by
      have hsmall := op.piece.small
      rw [List.length_append]
      exact (Nat.add_le_add_left hsmall.le _).trans hput
    rw [if_pos (by omega), dif_pos hfits, Piece.put_of_le hput]
    exact ⟨_, rfl, rfl⟩
  · have hput : SIZE < b.data.length + op.piece.room := by
      rw [avail_eq] at hroom
      show SIZE < b.data.length + (op.chars.length + 1)
      omega
    have hguard := h (by omega)
    rw [if_neg (by omega), Piece.put_of_lt hput]
    exact ⟨b, rfl, rfl⟩

/-- **One that is misjudged** writes past the end where there is too little room. -/
theorem insertString_overrun {op : StringInsertion} (hlen : b.avail < op.chars.length)
    (hint : asInt op.chars.length < b.avail) : b.insertString op = none := by
  have hlong : ¬(b.data ++ op.chars).length ≤ SIZE := by
    rw [avail_eq] at hlen
    rw [List.length_append]
    omega
  rw [insertString, append, if_pos hint, dif_neg hlong]

/-- Where there is just not enough, it fills the array that should have stayed as it was. -/
theorem insertString_misjudged {op : StringInsertion} (hlen : b.avail ≤ op.chars.length)
    (hint : asInt op.chars.length < b.avail) (h : b.insertString op = some b') :
    b'.data.length = SIZE ∧ b.data.length < SIZE := by
  obtain hlt | heq := Int.lt_or_eq_of_le hlen
  · rw [insertString_overrun hlt hint] at h
    cases h
  · have hlarge := le_of_asInt_lt (Int.lt_of_lt_of_le hint hlen)
    rw [avail_eq] at heq
    have hfull : (b.data ++ op.chars).length = SIZE := by
      rw [List.length_append]
      omega
    rw [insertString, append, if_pos hint, dif_pos hfull.le] at h
    cases h
    exact ⟨hfull, by omega⟩

theorem insertString_length_le {op : StringInsertion} (h : b.insertString op = some b') :
    b.data.length ≤ b'.data.length := by
  rw [insertString, append] at h
  split at h
  · split at h
    · cases h
      exact (List.prefix_append _ _).length_le
    · cases h
  · cases h
    exact le_rfl

theorem insertStrings_cons {op : StringInsertion} {ops : List StringInsertion}
    (h : b.insertStrings (op :: ops) = some b') :
    ∃ b₁ : FixedBuffer SIZE Char, b.insertString op = some b₁ ∧
      b₁.insertStrings ops = some b' := by
  rw [insertStrings] at h
  exact Option.bind_eq_some_iff.1 h

theorem insertStrings_length_le {ops : List StringInsertion} (h : b.insertStrings ops = some b') :
    b.data.length ≤ b'.data.length := by
  induction ops generalizing b with
  | nil =>
    cases h
    exact le_rfl
  | cons op ops ih =>
    obtain ⟨b₁, hop, hops⟩ := insertStrings_cons h
    exact (insertString_length_le hop).trans (ih hops)

end FixedBuffer

/-- No insertion is misjudged at its turn: where there is not more room than the text is long, there
is not more than the `int` of its length either. -/
def NoneMisjudged (SIZE : ℕ) (data : List Char) (ops : List StringInsertion) : Prop :=
  ∀ before op after, ops = before ++ op :: after →
    (SIZE : ℤ) - (fill SIZE data (before.map StringInsertion.piece)).length ≤ op.chars.length →
    (SIZE : ℤ) - (fill SIZE data (before.map StringInsertion.piece)).length ≤ asInt op.chars.length

namespace NoneMisjudged

variable {SIZE : ℕ} {data : List Char} {op : StringInsertion} {ops : List StringInsertion}

theorem head (h : NoneMisjudged SIZE data (op :: ops)) :
    (SIZE : ℤ) - data.length ≤ op.chars.length →
      (SIZE : ℤ) - data.length ≤ asInt op.chars.length :=
  h [] op ops rfl

theorem tail (h : NoneMisjudged SIZE data (op :: ops)) :
    NoneMisjudged SIZE (op.piece.put SIZE data) ops := by
  rintro before op' after rfl
  exact h (op :: before) op' after rfl

end NoneMisjudged

namespace FixedBuffer

variable {SIZE : ℕ} {b b' : FixedBuffer SIZE Char}

/-- **Insertions none of which is misjudged** fill the array. -/
theorem insertStrings_spec {ops : List StringInsertion} (h : NoneMisjudged SIZE b.data ops) :
    ∃ b' : FixedBuffer SIZE Char, b.insertStrings ops = some b' ∧
      b'.data = fill SIZE b.data (ops.map StringInsertion.piece) := by
  induction ops generalizing b with
  | nil => exact ⟨b, rfl, rfl⟩
  | cons op ops ih =>
    obtain ⟨b₁, hop, hdata⟩ := b.insertString_spec h.head
    have htail := h.tail
    rw [← hdata] at htail
    obtain ⟨b', hops, hfill⟩ := ih htail
    refine ⟨b', ?_, ?_⟩
    · rw [insertStrings, hop]
      exact hops
    · rw [List.map_cons, fill_cons, ← hdata, hfill]

/-- The array is full too early if one is misjudged. -/
theorem noneMisjudged_of_run {ops : List StringInsertion} (h : b.insertStrings ops = some b')
    (hfill : b'.data.length = (fill SIZE b.data (ops.map StringInsertion.piece)).length) :
    NoneMisjudged SIZE b.data ops := by
  induction ops generalizing b with
  | nil =>
    intro before op after heq
    simp at heq
  | cons op ops ih =>
    obtain ⟨b₁, hop, hops⟩ := insertStrings_cons h
    rw [List.map_cons, fill_cons] at hfill
    have hguard : b.avail ≤ op.chars.length → b.avail ≤ asInt op.chars.length := by
      intro hlen
      by_contra hint
      obtain ⟨hfull, hroom⟩ := insertString_misjudged hlen (Int.not_le.1 hint) hop
      have hgrow := insertStrings_length_le hops
      have hfree := fill_length_lt (ops.map StringInsertion.piece) (op.piece.put_length_lt hroom)
      omega
    obtain ⟨b₂, hop', hdata⟩ := b.insertString_spec hguard
    cases hop.symm.trans hop'
    rw [← hdata] at hfill
    have htail := ih hops hfill
    rintro (_ | ⟨op', before⟩) op'' after heq
    · cases heq
      exact hguard
    · cases heq
      rw [List.map_cons, fill_cons, ← hdata]
      exact htail before op'' after rfl

end FixedBuffer

/-- **Insertions of text keep to the array exactly when none is misjudged.** From every state of
every buffer, the insertions run to their end inside the array and leave the pieces that found room
at their turn, each whole and in order, if and only if at the turn of no piece there is more room
than the `int` of its length while there is not more than its length. -/
theorem insertions_fit_iff (SIZE : ℕ) (b : FixedBuffer SIZE Char) (ops : List StringInsertion) :
    (∃ b' : FixedBuffer SIZE Char, b.insertStrings ops = some b' ∧
      b'.data = b.data ++
        (kept SIZE b.data (ops.map StringInsertion.piece)).flatMap Piece.text) ↔
    NoneMisjudged SIZE b.data ops := by
  rw [← fill_eq]
  constructor
  · rintro ⟨b', hrun, hfill⟩
    exact FixedBuffer.noneMisjudged_of_run hrun (by rw [hfill])
  · exact FixedBuffer.insertStrings_spec

/-- **A string of `2 ^ 32` characters** goes through the test of an empty line: as an `int` its
length is zero. -/
theorem long_string_overruns :
    ¬∃ b' : FixedBuffer 4000 Char,
      FixedBuffer.empty.insertStrings [.string (List.replicate (2 ^ 32) 'a')] = some b' := by
  rintro ⟨b', h⟩
  obtain ⟨b₁, hop, -⟩ := FixedBuffer.insertStrings_cons h
  have hlen : (StringInsertion.string (List.replicate (2 ^ 32) 'a')).chars.length = 2 ^ 32 :=
    List.length_replicate
  have hempty : (FixedBuffer.empty : FixedBuffer 4000 Char).avail = 4000 := rfl
  rw [FixedBuffer.insertString_overrun] at hop
  · cases hop
  · rw [hlen, hempty]
    decide
  · rw [hlen, hempty]
    decide

end Cannet.Base
