import Mathlib.Data.List.Infix

/-!
# Filling an array

Pieces are put one after another into an array of `cap` places. Each asks for room, for more than
its own length, and is put down as a whole where the one before it ended, or left out if there is
less room than that. The array is never full then (`fill_length_lt`).
-/

namespace Cannet.Foundations


/-- A text and the room it asks for. -/
structure Piece (α : Type) where
  text : List α
  room : ℕ
  small : text.length < room

variable {α : Type} {cap : ℕ} {data : List α} {p : Piece α}

/-- The array after the turn of a piece. -/
def Piece.put (cap : ℕ) (data : List α) (p : Piece α) : List α :=
  if data.length + p.room ≤ cap then data ++ p.text else data

/-- The array after the turns of all pieces. -/
def fill (cap : ℕ) (data : List α) (ps : List (Piece α)) : List α := ps.foldl (Piece.put cap) data

namespace Piece

theorem put_of_le (h : data.length + p.room ≤ cap) : p.put cap data = data ++ p.text := if_pos h

theorem put_of_lt (h : cap < data.length + p.room) : p.put cap data = data := if_neg (by omega)

theorem put_length_lt (p : Piece α) (h : data.length < cap) : (p.put cap data).length < cap := by
  have hsmall := p.small
  rw [put]
  split
  · rw [List.length_append]
    omega
  · exact h

end Piece

@[simp] theorem fill_nil (cap : ℕ) (data : List α) : fill cap data [] = data := rfl

@[simp] theorem fill_cons (cap : ℕ) (data : List α) (p : Piece α) (ps : List (Piece α)) :
    fill cap data (p :: ps) = fill cap (p.put cap data) ps := rfl

/-- A place stays free. -/
theorem fill_length_lt (ps : List (Piece α)) (h : data.length < cap) :
    (fill cap data ps).length < cap := by
  induction ps generalizing data with
  | nil => exact h
  | cons p ps ih => exact ih (p.put_length_lt h)

/-- The pieces that are put down. -/
def kept (cap : ℕ) : List α → List (Piece α) → List (Piece α)
  | _, [] => []
  | data, p :: ps =>
    if data.length + p.room ≤ cap then p :: kept cap (data ++ p.text) ps else kept cap data ps

/-- **What is in the array**: the pieces that found their room, one behind the other. -/
theorem fill_eq (cap : ℕ) (data : List α) (ps : List (Piece α)) :
    fill cap data ps = data ++ (kept cap data ps).flatMap Piece.text := by
  induction ps generalizing data with
  | nil => simp [kept]
  | cons p ps ih =>
    rw [fill_cons, ih, Piece.put, kept]
    split
    · rw [List.flatMap_cons, List.append_assoc]
    · rfl

end Cannet.Foundations
