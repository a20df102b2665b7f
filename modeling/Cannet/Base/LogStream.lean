import Mathlib.Data.Int.Notation
import Mathlib.Data.List.Basic
import Mathlib.Algebra.Ring.Nat

/-!
# The buffers of the logger

`FixedBuffer<SIZE>` of `LogStream.h`: an array of `SIZE` bytes that is filled from the front.
-/

namespace Cannet.Base

def kSmallBuffer : ℕ := 4000

def kLargeBuffer : ℕ := 4000 * 1000

/-- The bytes before `cur_`. -/
structure FixedBuffer (SIZE : ℕ) (β : Type) where
  data : List β
  fits : data.length ≤ SIZE

variable {SIZE : ℕ} {β : Type}

/-- A `size_t` as an `int`. -/
def asInt (len : ℕ) : ℤ := Int.bmod len (2 ^ 32)

namespace FixedBuffer

def empty : FixedBuffer SIZE β := ⟨[], Nat.zero_le _⟩

def length (b : FixedBuffer SIZE β) : ℕ := b.data.length

def avail (b : FixedBuffer SIZE β) : ℤ := SIZE - b.length

/-- `append`; nothing if it writes past the end of the array. -/
def append (b : FixedBuffer SIZE β) (buf : List β) : Option (FixedBuffer SIZE β) :=
  if b.avail > asInt buf.length then
    if h : (b.data ++ buf).length ≤ SIZE then some ⟨b.data ++ buf, h⟩ else none
  else some b

/-- `cur_ = data_`. -/
def reset (_ : FixedBuffer SIZE β) : FixedBuffer SIZE β := empty

end FixedBuffer

/-- The length of an `int` survives the conversions. -/
theorem asInt_eq {len : ℕ} (h : len < 2 ^ 31) : asInt len = len := by
  exact Int.bmod_eq_of_le (by omega) (by omega)

/-- A piece that is shorter than the space left is appended. -/
theorem FixedBuffer.append_of_lt {b : FixedBuffer SIZE β} {buf : List β}
    (hint : buf.length < 2 ^ 31) (h : b.avail > buf.length) :
    ∃ b' : FixedBuffer SIZE β, b.append buf = some b' ∧ b'.data = b.data ++ buf := by
  have hfits : (b.data ++ buf).length ≤ SIZE := by
    rw [FixedBuffer.avail, FixedBuffer.length] at h
    rw [List.length_append]
    omega
  rw [FixedBuffer.append, asInt_eq hint, if_pos h, dif_pos hfits]
  exact ⟨_, rfl, rfl⟩

/-- Whatever the length, it is appended or left out. -/
theorem FixedBuffer.append_isSome {b : FixedBuffer SIZE β} {buf : List β}
    (hint : buf.length < 2 ^ 31) : ∃ b' : FixedBuffer SIZE β, b.append buf = some b' := by
  by_cases h : b.avail > buf.length
  · obtain ⟨b', hb', -⟩ := append_of_lt hint h
    exact ⟨b', hb'⟩
  · rw [append, asInt_eq hint, if_neg h]
    exact ⟨b, rfl⟩

end Cannet.Base
