import OpenFlow.Bytes

/-!
# Cursors

A cursor stands at a position in a buffer.  Reading only ever looks ahead, so a
cursor keeps the bytes that follow it, its own position, and the size of the
whole buffer; the bytes it has passed are gone.  A position may lie past the end
of the buffer, and then nothing follows it.

Main definitions:

* `Cursor.at buf p`: the cursor at position `p` of the buffer `buf`.
* `Cursor.advance c n`: `n` bytes further on, wherever that is.
* `Cursor.advanceWithin c n`: `n` bytes further on, but at the end of the buffer
  at the latest.
* `Cursor.stop`: the same, for a position and a length that are machine words.
-/

namespace OpenFlow

/-- A position in a buffer, with the bytes that follow it. -/
@[ext] structure Cursor where
  /-- The distance from the start of the buffer. -/
  pos : Nat
  /-- The size of the whole buffer. -/
  size : Nat
  /-- The bytes from the position to the end of the buffer. -/
  rest : Bytes
  length_rest : rest.length = size - pos
  deriving DecidableEq

namespace Cursor

/-- The cursor at position `p` of a buffer. -/
def «at» (buf : Bytes) (p : Nat) : Cursor :=
  ⟨p, buf.length, buf.drop p, by simp⟩

/-- The cursor at the front of a buffer. -/
def start (buf : Bytes) : Cursor := Cursor.at buf 0

/-- How many bytes follow the cursor. -/
def remaining (c : Cursor) : Nat := c.size - c.pos

/-- The cursor `n` bytes further on. -/
def advance (c : Cursor) (n : Nat) : Cursor :=
  ⟨c.pos + n, c.size, c.rest.drop n, by
    have := c.length_rest
    simp only [List.length_drop]; omega⟩

/-- The cursor `n` bytes further on, held back to the end of the buffer. -/
def advanceWithin (c : Cursor) (n : Nat) : Cursor :=
  ⟨min (c.pos + n) c.size, c.size, c.rest.drop n, by
    have := c.length_rest
    simp only [List.length_drop]; omega⟩

/-- The end of the next `length` bytes from a position of a buffer on, held back to
the end of the buffer.  The sum is a word as position and length are: where it does
not fit 64 bits it wraps, as sums do that are not checked, and the end lies in front
of the position. -/
def stop (buf : Bytes) (start length : UInt64) : Nat := min (start + length).toNat buf.length

@[simp] theorem pos_at (buf : Bytes) (p : Nat) : (Cursor.at buf p).pos = p := rfl

@[simp] theorem size_at (buf : Bytes) (p : Nat) : (Cursor.at buf p).size = buf.length := rfl

@[simp] theorem rest_at (buf : Bytes) (p : Nat) : (Cursor.at buf p).rest = buf.drop p := rfl

@[simp] theorem pos_advance (c : Cursor) (n : Nat) : (c.advance n).pos = c.pos + n := rfl

@[simp] theorem size_advance (c : Cursor) (n : Nat) : (c.advance n).size = c.size := rfl

@[simp] theorem rest_advance (c : Cursor) (n : Nat) : (c.advance n).rest = c.rest.drop n := rfl

@[simp] theorem pos_advanceWithin (c : Cursor) (n : Nat) :
    (c.advanceWithin n).pos = min (c.pos + n) c.size := rfl

@[simp] theorem size_advanceWithin (c : Cursor) (n : Nat) :
    (c.advanceWithin n).size = c.size := rfl

@[simp] theorem rest_advanceWithin (c : Cursor) (n : Nat) :
    (c.advanceWithin n).rest = c.rest.drop n := rfl

theorem length_rest_eq_remaining (c : Cursor) : c.rest.length = c.remaining :=
  c.length_rest

theorem length_take_rest {c : Cursor} {n : Nat} (h : n ≤ c.remaining) :
    (c.rest.take n).length = n := by
  rw [List.length_take, length_rest_eq_remaining, Nat.min_eq_left h]

@[simp] theorem advance_zero (c : Cursor) : c.advance 0 = c := by
  ext1 <;> simp

@[simp] theorem advance_advance (c : Cursor) (m n : Nat) :
    (c.advance m).advance n = c.advance (m + n) := by
  ext1
  · simp [Nat.add_assoc]
  · rfl
  · simp [List.drop_drop]

theorem advance_at (buf : Bytes) (p n : Nat) :
    (Cursor.at buf p).advance n = Cursor.at buf (p + n) := by
  ext1
  · rfl
  · rfl
  · simp [List.drop_drop]

/-- Inside the buffer, holding back has no effect. -/
theorem advanceWithin_eq_advance {c : Cursor} {n : Nat} (h : c.pos + n ≤ c.size) :
    c.advanceWithin n = c.advance n := by
  ext1
  · simp [Nat.min_eq_left h]
  · rfl
  · rfl

/-- A sum that fits a word is what it is. -/
theorem stop_of_lt {start length : UInt64} (h : start.toNat + length.toNat < UInt64.size)
    (buf : Bytes) : stop buf start length = min (start.toNat + length.toNat) buf.length := by
  rw [stop, UInt64.toNat_add, Nat.mod_eq_of_lt h]

/-- A sum that wraps lies in front of what is added to. -/
theorem stop_lt_of_le {start length : UInt64} (h : UInt64.size ≤ start.toNat + length.toNat)
    (buf : Bytes) : stop buf start length < start.toNat := by
  have hlength : length.toNat < UInt64.size := length.toNat_lt
  have hstart : start.toNat < UInt64.size := start.toNat_lt
  have hwrap : (start.toNat + length.toNat) % UInt64.size =
      start.toNat + length.toNat - UInt64.size := by
    rw [Nat.mod_eq_sub_mod h, Nat.mod_eq_of_lt (by omega)]
  have hsum : (start + length).toNat = (start.toNat + length.toNat) % UInt64.size :=
    UInt64.toNat_add start length
  rw [stop, hsum, hwrap]
  omega

end Cursor
end OpenFlow
