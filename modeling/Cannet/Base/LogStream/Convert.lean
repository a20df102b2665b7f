import Cannet.Base.LogStream
import Cannet.Foundations.Numeral

/-!
# Numbers in a line

`convert` and `convertHex` of `LogStream.cpp`, and the insertions that use them: `operator<<` of the
integer types and of a pointer. The characters a conversion leaves at `cur_`, its NUL included,
are written into the array of the buffer, and an insertion that writes past its end is `none`.

`convert` divides with truncation towards zero, so the remainders of a negative number are negative;
they look up their digits in the left half of a table that is mirrored at its zero
(`zero_eq`). What comes out is the numeral of the number (`convert_eq`, `convertHex_eq`), which is
short enough for the room that is asked for.
-/

namespace Cannet.Base

open Foundations

/-- The NUL at the end of a C string. -/
def nul : Char := Char.ofNat 0

/-- The table of `convert`, around its zero. -/
def digits : List Char :=
  ['9', '8', '7', '6', '5', '4', '3', '2', '1', '0', '1', '2', '3', '4', '5', '6', '7', '8', '9']

def digitsHex : List Char :=
  ['0', '1', '2', '3', '4', '5', '6', '7', '8', '9', 'A', 'B', 'C', 'D', 'E', 'F']

/-- `zero[lsd]`, where `zero` points to the middle of `digits`; `none` outside of the table. -/
def zero (lsd : ℤ) : Option Char := if 0 ≤ 9 + lsd then digits[(9 + lsd).toNat]? else none

theorem natAbs_tdiv_ten (i : ℤ) : (i.tdiv 10).natAbs = i.natAbs / 10 := Int.natAbs_tdiv i 10

/-- The digits `convert` writes, in the order in which it does. -/
def convertLoop (i : ℤ) : Option (List Char) :=
  match zero (i.tmod 10) with
  | none => none
  | some c => if i.tdiv 10 = 0 then some [c] else (convertLoop (i.tdiv 10)).map (c :: ·)
termination_by i.natAbs
decreasing_by
  have hdiv := natAbs_tdiv_ten i
  omega

/-- What is in `buf` at the end, and the length returned. -/
def convert (value : ℤ) : Option (List Char × ℕ) :=
  (convertLoop value).map fun written =>
    let p := if value < 0 then written ++ ['-'] else written
    (p.reverse ++ [nul], p.length)

/-- The digits `convertHex` writes, in the order in which it does. -/
def convertHexLoop (i : ℕ) : Option (List Char) :=
  match digitsHex[i % 16]? with
  | none => none
  | some c => if i / 16 = 0 then some [c] else (convertHexLoop (i / 16)).map (c :: ·)
termination_by i
decreasing_by omega

def convertHex (value : ℕ) : Option (List Char × ℕ) :=
  (convertHexLoop value).map fun p => (p.reverse ++ [nul], p.length)

/-! ## Insertions -/

/-- The integer types of `operator<<`. -/
inductive IntType
  | short
  | unsignedShort
  | int
  | unsignedInt
  | long
  | unsignedLong
  | longLong
  | unsignedLongLong
  deriving DecidableEq, Repr

namespace IntType

def bits : IntType → ℕ
  | short | unsignedShort => 16
  | int | unsignedInt => 32
  | long | unsignedLong | longLong | unsignedLongLong => 64

def signed : IntType → Bool
  | short | int | long | longLong => true
  | unsignedShort | unsignedInt | unsignedLong | unsignedLongLong => false

/-- The number a word of the type stands for. -/
def val (T : IntType) (x : BitVec T.bits) : ℤ := if T.signed then x.toInt else x.toNat

end IntType

def kMaxNumericSize : ℕ := 48

variable {SIZE : ℕ}

namespace FixedBuffer

/-- Characters written from `cur_` on, the first `len` of which are kept by `add(len)`; nothing if
they reach past the end of the array. -/
def write (b : FixedBuffer SIZE Char) (written : List Char) (len : ℕ) :
    Option (FixedBuffer SIZE Char) :=
  if h : (b.data ++ written).length ≤ SIZE ∧ len ≤ written.length then
    some ⟨b.data ++ written.take len, by
      rw [List.length_append, List.length_take]
      rw [List.length_append] at h
      omega⟩
  else none

/-- `formatInteger`, of the value of any integer type. -/
def formatInteger (b : FixedBuffer SIZE Char) (val : ℤ) : Option (FixedBuffer SIZE Char) :=
  if kMaxNumericSize ≤ b.avail then do
    let (buf, len) ← convert val
    b.write buf len
  else some b

/-- `operator<<` of the integer types: `short` and `unsigned short` are cast to the 32-bit types. -/
def insertInteger (b : FixedBuffer SIZE Char) :
    (T : IntType) → BitVec T.bits → Option (FixedBuffer SIZE Char)
  | .short, x => b.formatInteger (IntType.int.val (x.signExtend 32))
  | .unsignedShort, x => b.formatInteger (IntType.unsignedInt.val (x.setWidth 32))
  | .int, x => b.formatInteger (IntType.int.val x)
  | .unsignedInt, x => b.formatInteger (IntType.unsignedInt.val x)
  | .long, x => b.formatInteger (IntType.long.val x)
  | .unsignedLong, x => b.formatInteger (IntType.unsignedLong.val x)
  | .longLong, x => b.formatInteger (IntType.longLong.val x)
  | .unsignedLongLong, x => b.formatInteger (IntType.unsignedLongLong.val x)

/-- `operator<<(const void *)`. -/
def insertPointer (b : FixedBuffer SIZE Char) (val : BitVec 64) :
    Option (FixedBuffer SIZE Char) :=
  if kMaxNumericSize ≤ b.avail then do
    let (buf, len) ← convertHex val.toNat
    b.write ('0' :: 'x' :: buf) (len + 2)
  else some b

end FixedBuffer

/-! ## Digits -/

/-- The character of a digit. -/
def digitChar (d : ℕ) : Char := digitsHex.getD d '0'

/-- The digit of a character. -/
def digitVal (c : Char) : ℕ := digitsHex.idxOf c

theorem digitVal_digitChar {d : ℕ} (hd : d < 16) : digitVal (digitChar d) = d := by
  interval_cases d <;> rfl

/-- **The mirrored table** has the digit of a remainder whatever its sign. -/
theorem zero_eq {lsd : ℤ} (h : lsd.natAbs < 10) : zero lsd = some (digitChar lsd.natAbs) := by
  obtain ⟨d, rfl | rfl⟩ := lsd.eq_nat_or_neg
  · rw [Int.natAbs_natCast] at h ⊢
    interval_cases d <;> rfl
  · rw [Int.natAbs_neg, Int.natAbs_natCast] at h ⊢
    interval_cases d <;> rfl

theorem digitsHex_getElem? {d : ℕ} (h : d < 16) : digitsHex[d]? = some (digitChar d) := by
  interval_cases d <;> rfl

/-- The characters of a numeral. -/
def numeralChars (b n : ℕ) : List Char := (numeral b n).map digitChar

theorem zero_tmod (i : ℤ) : zero (i.tmod 10) = some (digitChar (i.natAbs % 10)) := by
  have hmod : (i.tmod 10).natAbs = i.natAbs % 10 := Int.natAbs_tmod i 10
  rw [zero_eq (by omega), hmod]

theorem numeralChars_of_lt {b n : ℕ} (hn : n < b) : numeralChars b n = [digitChar n] := by
  rw [numeralChars, numeral_of_lt hn]
  rfl

theorem numeralChars_of_le {b n : ℕ} (hb : 1 < b) (hn : b ≤ n) :
    numeralChars b n = numeralChars b (n / b) ++ [digitChar (n % b)] := by
  rw [numeralChars, numeral_of_le hb hn, List.map_append]
  rfl

/-- **The loop of `convert`** writes the digits of the absolute value, lowest first. -/
theorem convertLoop_eq (i : ℤ) : convertLoop i = some (numeralChars 10 i.natAbs).reverse := by
  induction hn : i.natAbs using Nat.strong_induction_on generalizing i with
  | _ n ih =>
    have hdiv := natAbs_tdiv_ten i
    rw [convertLoop, zero_tmod, hn]
    by_cases hlast : i.tdiv 10 = 0
    · have hlt : n < 10 := by omega
      simp only [if_pos hlast, numeralChars_of_lt hlt, Nat.mod_eq_of_lt hlt]
      rfl
    · have hge : 10 ≤ n := by omega
      simp only [if_neg hlast]
      rw [ih (n / 10) (by omega) (i.tdiv 10) (by omega), numeralChars_of_le (by decide) hge,
        List.reverse_append]
      rfl

theorem convertHexLoop_eq (i : ℕ) : convertHexLoop i = some (numeralChars 16 i).reverse := by
  induction i using Nat.strong_induction_on with
  | _ i ih =>
    rw [convertHexLoop, digitsHex_getElem? (Nat.mod_lt i (by decide))]
    by_cases hlast : i / 16 = 0
    · have hlt : i < 16 := by omega
      simp only [if_pos hlast, numeralChars_of_lt hlt, Nat.mod_eq_of_lt hlt]
      rfl
    · have hge : 16 ≤ i := by omega
      simp only [if_neg hlast]
      rw [ih (i / 16) (by omega), numeralChars_of_le (by decide) hge, List.reverse_append]
      rfl

/-! ## Numerals -/

/-- The numeral of an integer. -/
def decimal (v : ℤ) : List Char :=
  if v < 0 then '-' :: numeralChars 10 v.natAbs else numeralChars 10 v.natAbs

/-- **`convert` makes the numeral** and returns its length. -/
theorem convert_eq (v : ℤ) : convert v = some (decimal v ++ [nul], (decimal v).length) := by
  rw [convert, convertLoop_eq, decimal]
  split <;> simp

theorem convertHex_eq (v : ℕ) :
    convertHex v = some (numeralChars 16 v ++ [nul], (numeralChars 16 v).length) := by
  rw [convertHex, convertHexLoop_eq]
  simp

/-- A numeral, read. -/
def readChars (b : ℕ) (l : List Char) : ℕ := readDigits b (l.map digitVal)

/-- A numeral with its sign, read. -/
def readDecimal : List Char → ℤ
  | [] => 0
  | c :: l => if c = '-' then -readChars 10 l else readChars 10 (c :: l)

theorem readChars_numeralChars {b : ℕ} (hb : 1 < b) (hb' : b ≤ 16) (n : ℕ) :
    readChars b (numeralChars b n) = n := by
  have hdigits : ((numeral b n).map digitChar).map digitVal = numeral b n := by
    rw [List.map_map]
    refine (List.map_congr_left fun d hd => ?_).trans (List.map_id _)
    have hlt := lt_of_mem_numeral hb hd
    exact digitVal_digitChar (by omega)
  rw [readChars, numeralChars, hdigits, readDigits_numeral hb]

/-- The characters of the numeral of `n` in base `b`. -/
structure IsNumeral (b n : ℕ) (l : List Char) : Prop where
  nonempty : l ≠ []
  digits : ∀ c ∈ l, ∃ d < b, c = digitChar d
  /-- No leading zero, except for the numeral of zero. -/
  lead : l.head? = some '0' → l = ['0']
  value : readChars b l = n

theorem isNumeral_numeralChars {b : ℕ} (hb : 1 < b) (hb' : b ≤ 16) (n : ℕ) :
    IsNumeral b n (numeralChars b n) where
  nonempty h := numeral_ne_nil (List.map_eq_nil_iff.1 h)
  digits c hc := by
    obtain ⟨d, hd, rfl⟩ := List.mem_map.1 hc
    exact ⟨d, lt_of_mem_numeral hb hd, rfl⟩
  lead h := by
    rw [numeralChars, List.head?_map, Option.map_eq_some_iff] at h
    obtain ⟨d, hhead, hchar⟩ := h
    have hlt := lt_of_mem_numeral hb (List.mem_of_mem_head? hhead)
    have hzero : d = 0 := by
      rw [← digitVal_digitChar (show d < 16 by omega), hchar]
      rfl
    rw [hzero] at hhead
    rw [eq_zero_of_head_numeral hhead, numeralChars_of_lt (by omega)]
    rfl
  value := readChars_numeralChars hb hb' n

theorem digitChar_ne_minus {d : ℕ} (hd : d < 16) : digitChar d ≠ '-' := by
  interval_cases d <;> decide

/-- **Reading back** gives the value. -/
theorem readDecimal_decimal (v : ℤ) : readDecimal (decimal v) = v := by
  have hnum := isNumeral_numeralChars (b := 10) (by decide) (by decide) v.natAbs
  rw [decimal]
  split
  · rw [readDecimal, if_pos rfl, hnum.value]
    omega
  · cases hchars : numeralChars 10 v.natAbs with
    | nil => exact absurd hchars hnum.nonempty
    | cons c l =>
      rw [hchars] at hnum
      obtain ⟨d, hd, hc⟩ := hnum.digits c List.mem_cons_self
      have hminus : c ≠ '-' := by
        rw [hc]
        exact digitChar_ne_minus (by omega)
      rw [readDecimal, if_neg hminus, hnum.value]
      omega

theorem length_decimal_le {v : ℤ} (hv : v.natAbs < 10 ^ 20) : (decimal v).length ≤ 21 := by
  have hlen : (numeralChars 10 v.natAbs).length ≤ 20 := by
    rw [numeralChars, List.length_map]
    exact length_numeral_le (by decide) (by decide) hv
  rw [decimal]
  split
  · rw [List.length_cons]
    omega
  · omega

theorem length_hex_le (v : BitVec 64) : (numeralChars 16 v.toNat).length ≤ 16 := by
  have hlt : v.toNat < 16 ^ 16 := v.isLt
  rw [numeralChars, List.length_map]
  exact length_numeral_le (by decide) (by decide) hlt

/-- Every integer type is at most 64 bits wide. -/
theorem IntType.natAbs_val_lt (T : IntType) (x : BitVec T.bits) : (T.val x).natAbs < 10 ^ 20 := by
  have hpow : (2 : ℤ) ^ T.bits ≤ 2 ^ 64 := by cases T <;> decide
  have hpow' : 2 ^ T.bits ≤ 2 ^ 64 := by cases T <;> decide
  have hx := x.isLt
  have hlow := x.le_two_mul_toInt
  have hhigh := x.two_mul_toInt_lt
  rw [IntType.val]
  split <;> omega

/-! ## Room -/

namespace FixedBuffer

variable {b : FixedBuffer SIZE Char}

theorem ext_data {b b' : FixedBuffer SIZE Char} (h : b.data = b'.data) : b = b' := by
  cases b
  cases b'
  cases h
  rfl

/-- What has not moved `cur_` has left the buffer as it was. -/
theorem appended_of_data {p : Prop} [Decidable p] {b b' : FixedBuffer SIZE Char} {l : List Char}
    (h : b'.data = if p then b.data ++ l else b.data) :
    if p then b'.data = b.data ++ l else b' = b := by
  by_cases hp : p
  · rw [if_pos hp] at h ⊢
    exact h
  · rw [if_neg hp] at h ⊢
    exact ext_data h

/-- What is written fits, and only the NUL is left behind `cur_`. -/
theorem write_spec {l : List Char} (hroom : (l.length : ℤ) + 1 ≤ b.avail) :
    ∃ b' : FixedBuffer SIZE Char, b.write (l ++ [nul]) l.length = some b' ∧
      b'.data = b.data ++ l := by
  have hfits : (b.data ++ (l ++ [nul])).length ≤ SIZE ∧ l.length ≤ (l ++ [nul]).length := by
    rw [avail, length] at hroom
    simp only [List.length_append, List.length_singleton]
    omega
  refine ⟨_, dif_pos hfits, ?_⟩
  show b.data ++ (l ++ [nul]).take l.length = _
  rw [List.take_left' rfl]

/-- **`formatInteger`** appends the whole numeral, or nothing. -/
theorem formatInteger_spec (b : FixedBuffer SIZE Char) {v : ℤ} (hv : v.natAbs < 10 ^ 20) :
    ∃ b' : FixedBuffer SIZE Char, b.formatInteger v = some b' ∧
      b'.data = if kMaxNumericSize ≤ b.avail then b.data ++ decimal v else b.data := by
  rw [formatInteger]
  split
  · rename_i hroom
    have hlen := length_decimal_le hv
    rw [kMaxNumericSize] at hroom
    rw [convert_eq]
    exact write_spec (by omega)
  · exact ⟨b, rfl, rfl⟩

/-- The casts to the 32-bit types keep the value. -/
theorem insertInteger_eq (b : FixedBuffer SIZE Char) (T : IntType) (x : BitVec T.bits) :
    b.insertInteger T x = b.formatInteger (T.val x) := by
  cases T with
  | short =>
    have hcast : IntType.int.val (x.signExtend 32) = IntType.short.val x :=
      BitVec.toInt_signExtend_of_le (by decide)
    rw [insertInteger, hcast]
  | unsignedShort =>
    have hcast : IntType.unsignedInt.val (x.setWidth 32) = IntType.unsignedShort.val x :=
      congrArg Int.ofNat (BitVec.toNat_setWidth_of_le (by decide))
    rw [insertInteger, hcast]
  | int | unsignedInt | long | unsignedLong | longLong | unsignedLongLong => rfl

/-- **A pointer** is appended as a whole, or not at all. -/
theorem insertPointer_spec (b : FixedBuffer SIZE Char) (v : BitVec 64) :
    ∃ b' : FixedBuffer SIZE Char, b.insertPointer v = some b' ∧
      b'.data = if kMaxNumericSize ≤ b.avail then b.data ++ '0' :: 'x' :: numeralChars 16 v.toNat
        else b.data := by
  rw [insertPointer]
  split
  · rename_i hroom
    have hlen := length_hex_le v
    rw [kMaxNumericSize] at hroom
    rw [convertHex_eq]
    have hfits : ((('0' :: 'x' :: numeralChars 16 v.toNat).length : ℕ) : ℤ) + 1 ≤ b.avail := by
      simp only [List.length_cons]
      omega
    exact write_spec hfits
  · exact ⟨b, rfl, rfl⟩

end FixedBuffer

/-- **Integers are formatted exactly and stay inside the buffer.** Of every value of every integer
type, and of every pointer, `convert` and `convertHex` leave the numeral and a NUL and return its
length; reading it gives the value; with the NUL and the `0x` it is shorter than the room asked for.
From every state of every buffer the insertions write and move inside the array, and append the
whole numeral if `kMaxNumericSize` bytes are free, else nothing. -/
theorem integers_formatted :
    (∀ (T : IntType) (x : BitVec T.bits),
      convert (T.val x) = some (decimal (T.val x) ++ [nul], (decimal (T.val x)).length) ∧
      (∃ l, IsNumeral 10 (T.val x).natAbs l ∧
        decimal (T.val x) = if T.val x < 0 then '-' :: l else l) ∧
      readDecimal (decimal (T.val x)) = T.val x ∧
      (decimal (T.val x)).length + 1 < kMaxNumericSize) ∧
    (∀ v : BitVec 64, ∃ l, convertHex v.toNat = some (l ++ [nul], l.length) ∧
      IsNumeral 16 v.toNat l ∧ 2 + l.length + 1 < kMaxNumericSize) ∧
    (∀ (SIZE : ℕ) (b : FixedBuffer SIZE Char) (T : IntType) (x : BitVec T.bits),
      ∃ b', b.insertInteger T x = some b' ∧
        if kMaxNumericSize ≤ b.avail then b'.data = b.data ++ decimal (T.val x) else b' = b) ∧
    ∀ (SIZE : ℕ) (b : FixedBuffer SIZE Char) (v : BitVec 64),
      ∃ b' l, b.insertPointer v = some b' ∧ IsNumeral 16 v.toNat l ∧
        if kMaxNumericSize ≤ b.avail then b'.data = b.data ++ '0' :: 'x' :: l else b' = b := by
  refine ⟨fun T x => ?_, fun v => ?_, fun SIZE b T x => ?_, fun SIZE b v => ?_⟩
  · have hlen := length_decimal_le (T.natAbs_val_lt x)
    refine ⟨convert_eq _, ⟨_, isNumeral_numeralChars (by decide) (by decide) _, rfl⟩,
      readDecimal_decimal _, ?_⟩
    rw [kMaxNumericSize]
    omega
  · have hlen := length_hex_le v
    refine ⟨_, convertHex_eq _, isNumeral_numeralChars (by decide) (by decide) _, ?_⟩
    rw [kMaxNumericSize]
    omega
  · obtain ⟨b', hb', hdata⟩ := b.formatInteger_spec (T.natAbs_val_lt x)
    rw [b.insertInteger_eq]
    exact ⟨b', hb', FixedBuffer.appended_of_data hdata⟩
  · obtain ⟨b', hb', hdata⟩ := b.insertPointer_spec v
    exact ⟨b', _, hb', isNumeral_numeralChars (by decide) (by decide) _,
      FixedBuffer.appended_of_data hdata⟩

end Cannet.Base
