import Mathlib.Data.List.Basic
import Mathlib.Algebra.Ring.Nat
import Mathlib.Algebra.Ring.Int.Defs

/-!
# Words as bytes

The `k` bytes of a number, lowest first (`leBytes`) and highest first (`beBytes`), and the object
representation of a word on a machine of either byte order (`Endian.memory`). A word brought to big
endian first has the same representation on both (`memory_htobe`), and read back from there it is
the same word (`betoh_ofMemory`).

`twosComplement` is the encoding of an integer as such; `beBytes_toNat` compares.
-/

namespace Cannet.Foundations

abbrev Byte := BitVec 8

/-- The `k` lowest bytes of a number, lowest first. -/
def leBytes : ℕ → ℕ → List Byte
  | 0, _ => []
  | k + 1, n => BitVec.ofNat 8 n :: leBytes k (n / 256)

/-- The `k` lowest bytes of a number, highest first. -/
def beBytes : ℕ → ℕ → List Byte
  | 0, _ => []
  | k + 1, n => BitVec.ofNat 8 (n / 256 ^ k) :: beBytes k n

def ofLeBytes : List Byte → ℕ
  | [] => 0
  | b :: l => b.toNat + 256 * ofLeBytes l

/-- The two's complement of an integer in `k` bytes, highest byte first. -/
def twosComplement (k : ℕ) (x : ℤ) : List Byte := beBytes k (x % 256 ^ k).toNat

@[simp] theorem length_leBytes (k n : ℕ) : (leBytes k n).length = k := by
  induction k generalizing n with
  | zero => rfl
  | succ k ih => rw [leBytes, List.length_cons, ih]

theorem beBytes_succ (k n : ℕ) : beBytes (k + 1) n = beBytes k (n / 256) ++ [BitVec.ofNat 8 n] := by
  induction k with
  | zero => simp [beBytes]
  | succ k ih =>
    rw [beBytes, ih, beBytes, List.cons_append, Nat.div_div_eq_div_mul, ← Nat.pow_succ']

theorem reverse_leBytes (k n : ℕ) : (leBytes k n).reverse = beBytes k n := by
  induction k generalizing n with
  | zero => rfl
  | succ k ih => rw [leBytes, List.reverse_cons, ih, beBytes_succ]

@[simp] theorem length_beBytes (k n : ℕ) : (beBytes k n).length = k := by
  rw [← reverse_leBytes, List.length_reverse, length_leBytes]

theorem reverse_beBytes (k n : ℕ) : (beBytes k n).reverse = leBytes k n := by
  rw [← reverse_leBytes, List.reverse_reverse]

theorem ofLeBytes_leBytes (k n : ℕ) : ofLeBytes (leBytes k n) = n % 256 ^ k := by
  induction k generalizing n with
  | zero => simp [leBytes, ofLeBytes, Nat.mod_one]
  | succ k ih =>
    have hbyte : (BitVec.ofNat 8 n).toNat = n % 256 := BitVec.toNat_ofNat n 8
    rw [leBytes, ofLeBytes, ih, hbyte, Nat.pow_succ', Nat.mod_mul]

theorem ofLeBytes_lt (l : List Byte) : ofLeBytes l < 256 ^ l.length := by
  induction l with
  | nil => simp [ofLeBytes]
  | cons b l ih =>
    have hb : b.toNat < 256 := b.isLt
    rw [ofLeBytes, List.length_cons, Nat.pow_succ']
    omega

theorem leBytes_ofLeBytes (l : List Byte) : leBytes l.length (ofLeBytes l) = l := by
  induction l with
  | nil => rfl
  | cons b l ih =>
    have hb : b.toNat < 256 := b.isLt
    have hdiv : (b.toNat + 256 * ofLeBytes l) / 256 = ofLeBytes l := by omega
    have hmod : BitVec.ofNat 8 (b.toNat + 256 * ofLeBytes l) = b := by
      apply BitVec.eq_of_toNat_eq
      rw [BitVec.toNat_ofNat]
      omega
    rw [List.length_cons, leBytes, ofLeBytes, hdiv, hmod, ih]

/-! ## Words in memory -/

theorem two_pow_eight_mul (k : ℕ) : 2 ^ (8 * k) = 256 ^ k := by
  rw [Nat.pow_mul]

variable {k : ℕ}

theorem word_lt (x : BitVec (8 * k)) : x.toNat < 256 ^ k := by
  rw [← two_pow_eight_mul]
  exact x.isLt

theorem toNat_ofNat_of_lt {n : ℕ} (h : n < 256 ^ k) : (BitVec.ofNat (8 * k) n).toNat = n := by
  rw [BitVec.toNat_ofNat, two_pow_eight_mul, Nat.mod_eq_of_lt h]

/-- The bytes of a word, highest first, are the two's complement of its signed value. -/
theorem beBytes_toNat (x : BitVec (8 * k)) : beBytes k x.toNat = twosComplement k x.toInt := by
  have hpow : ((256 : ℤ) ^ k) = ((2 ^ (8 * k) : ℕ) : ℤ) := by
    rw [two_pow_eight_mul]
    exact (Int.natCast_pow 256 k).symm
  have hx : x.toInt % (256 : ℤ) ^ k = (x.toNat : ℤ) := by
    rw [hpow, BitVec.toInt_eq_toNat_bmod, Int.bmod_emod]
    exact Int.emod_eq_of_lt (Int.natCast_nonneg _) (Int.ofNat_lt.2 x.isLt)
  rw [twosComplement, hx, Int.toNat_natCast]

/-- The byte order of a machine. -/
inductive Endian
  | little
  | big
  deriving DecidableEq, Repr

namespace Endian

/-- Bytes in address order, told lowest first; the same the other way. -/
def arrange : Endian → List Byte → List Byte
  | little, l => l
  | big, l => l.reverse

/-- The object representation of a word. -/
def memory (e : Endian) (x : BitVec (8 * k)) : List Byte := e.arrange (leBytes k x.toNat)

/-- The word with an object representation. -/
def ofMemory (e : Endian) (l : List Byte) : BitVec (8 * k) :=
  BitVec.ofNat _ (ofLeBytes (e.arrange l))

/-- The word with the bytes the other way round. -/
def bswap (x : BitVec (8 * k)) : BitVec (8 * k) := ofMemory big (leBytes k x.toNat)

/-- `htobe`: a word whose object representation is big endian. -/
def htobe : Endian → BitVec (8 * k) → BitVec (8 * k)
  | little, x => bswap x
  | big, x => x

/-- `betoh`, back. -/
def betoh : Endian → BitVec (8 * k) → BitVec (8 * k) := htobe

theorem toNat_bswap (x : BitVec (8 * k)) : (bswap x).toNat = ofLeBytes (beBytes k x.toNat) := by
  have hlt := ofLeBytes_lt (beBytes k x.toNat)
  rw [length_beBytes] at hlt
  rw [bswap, ofMemory, arrange, reverse_leBytes, toNat_ofNat_of_lt hlt]

@[simp] theorem length_memory (e : Endian) (x : BitVec (8 * k)) : (e.memory x).length = k := by
  cases e with
  | little => exact length_leBytes k _
  | big => rw [memory, arrange, List.length_reverse, length_leBytes]

/-- **Brought to big endian first**, a word has the same representation on every machine. -/
theorem memory_htobe (e : Endian) (x : BitVec (8 * k)) :
    e.memory (e.htobe x) = beBytes k x.toNat := by
  cases e with
  | little =>
    have h := leBytes_ofLeBytes (beBytes k x.toNat)
    rw [length_beBytes] at h
    rw [memory, arrange, htobe, toNat_bswap, h]
  | big => rw [memory, arrange, htobe, reverse_leBytes]

/-- **Read back from big endian bytes**, a word is the one that was written. -/
theorem betoh_ofMemory (e : Endian) (x : BitVec (8 * k)) :
    e.betoh (e.ofMemory (beBytes k x.toNat) : BitVec (8 * k)) = x := by
  have hself : BitVec.ofNat (8 * k) (ofLeBytes (leBytes k x.toNat)) = x := by
    apply BitVec.eq_of_toNat_eq
    rw [ofLeBytes_leBytes, Nat.mod_eq_of_lt (word_lt x), toNat_ofNat_of_lt (word_lt x)]
  cases e with
  | little =>
    have hlt := ofLeBytes_lt (beBytes k x.toNat)
    have hword : leBytes k (ofMemory little (beBytes k x.toNat) : BitVec (8 * k)).toNat =
        beBytes k x.toNat := by
      rw [length_beBytes] at hlt
      rw [ofMemory, arrange, toNat_ofNat_of_lt hlt]
      have h := leBytes_ofLeBytes (beBytes k x.toNat)
      rwa [length_beBytes] at h
    rw [betoh, htobe, bswap, hword, ofMemory, arrange, reverse_beBytes, hself]
  | big => rw [betoh, htobe, ofMemory, arrange, reverse_beBytes, hself]

/-- One byte is in no order. -/
theorem ofMemory_memory (e : Endian) (x : BitVec (8 * k)) :
    (e.ofMemory (e.memory x) : BitVec (8 * k)) = x := by
  have harr : e.arrange (e.arrange (leBytes k x.toNat)) = leBytes k x.toNat := by
    cases e with
    | little => rfl
    | big => exact List.reverse_reverse _
  apply BitVec.eq_of_toNat_eq
  rw [memory, ofMemory, harr, ofLeBytes_leBytes, Nat.mod_eq_of_lt (word_lt x),
    toNat_ofNat_of_lt (word_lt x)]

end Endian

end Cannet.Foundations
