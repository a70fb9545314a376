import OpenFlow.Bytes
import OpenFlow.Error

/-!
# Writers

A writer appends bytes to a buffer.  It may give up on the way, and then what it
had appended stays in the buffer beside the error.

Main definitions:

* `Writer`, with `++`: one writer after the other, unless the first gave up.
* `Writer.u8`, …, `Writer.u64`, `Writer.bytes`, `Writer.zeros`: the primitive
  writers.
* `Writer.length16`: a length in a 16-bit field, which may not fit.
* `Writer.padded`: a writer followed by zero bytes, as many as the number of bytes
  it appended calls for.
* `Writer.encode`: what a writer makes of an empty buffer.
-/

namespace OpenFlow

/-- A buffer after writing, and the error that ended the writing, if one did. -/
@[ext] structure Written where
  buffer : Array UInt8
  failure : Option Error

/-- A way to append to a buffer. -/
def Writer := Array UInt8 → Written

/-- A length as a 16-bit word, or the error that it does not fit. -/
def fitLength (what : String) (n : Nat) : Except Error UInt16 :=
  if n < 65536 then .ok (UInt16.ofNat n) else .error (.lengthOverflow what n)

namespace Writer

/-- Append to a buffer. -/
def run (w : Writer) (buffer : Array UInt8) : Written := w buffer

/-- Append nothing. -/
def skip : Writer := fun buffer => ⟨buffer, none⟩

/-- Give up. -/
def fail (e : Error) : Writer := fun buffer => ⟨buffer, some e⟩

/-- One writer, then the other. -/
protected def append (v w : Writer) : Writer := fun buffer =>
  match v buffer with
  | ⟨buffer', none⟩ => w buffer'
  | ⟨buffer', some e⟩ => ⟨buffer', some e⟩

instance : Append Writer := ⟨Writer.append⟩

/-- Append a string of bytes. -/
def bytes (bs : Bytes) : Writer := fun buffer => ⟨buffer ++ bs, none⟩

/-- Append one byte. -/
def u8 (n : UInt8) : Writer := bytes [n]

/-- Append a 16-bit word. -/
def u16 (n : UInt16) : Writer := bytes (Bytes.ofUInt16 n)

/-- Append a 32-bit word. -/
def u32 (n : UInt32) : Writer := bytes (Bytes.ofUInt32 n)

/-- Append a 64-bit word. -/
def u64 (n : UInt64) : Writer := bytes (Bytes.ofUInt64 n)

/-- Append `n` zero bytes. -/
def zeros (n : Nat) : Writer := bytes (Bytes.zeros n)

/-- Append a length as a 16-bit word. -/
def length16 (what : String) (n : Nat) : Writer :=
  match fitLength what n with
  | .ok length => u16 length
  | .error e => fail e

/-- Append a body cut or filled with zeros to exactly `n` bytes. -/
def fitted (n : Nat) (body : Bytes) : Writer :=
  bytes (body.take n) ++ zeros (n - body.length)

/-- Append what `w` appends, then zeros until the `n` bytes appended are `f n`. -/
def padded (f : Nat → Nat) (w : Writer) : Writer := fun buffer =>
  let before := buffer.size
  match w buffer with
  | ⟨buffer', none⟩ =>
    let n := buffer'.size - before
    zeros (f n - n) buffer'
  | ⟨buffer', some e⟩ => ⟨buffer', some e⟩

/-- Append the members of a list one after the other. -/
def each {α : Type} (f : α → Writer) : List α → Writer
  | [] => skip
  | a :: rest => f a ++ each f rest

/-- The bytes a writer appends to an empty buffer, or why it gave up. -/
def encode (w : Writer) : Except Error Bytes :=
  match w #[] with
  | ⟨buffer, none⟩ => .ok buffer.toList
  | ⟨_, some e⟩ => .error e

/-! ## Equations -/

theorem run_append_of_ok {v w : Writer} {p q : Array UInt8} (h : v.run p = ⟨q, none⟩) :
    (v ++ w).run p = w.run q := by
  change Writer.append v w p = _
  unfold Writer.append
  rw [show v p = _ from h]
  rfl

theorem run_append_of_error {v w : Writer} {p q : Array UInt8} {e : Error}
    (h : v.run p = ⟨q, some e⟩) : (v ++ w).run p = ⟨q, some e⟩ := by
  change Writer.append v w p = _
  unfold Writer.append
  rw [show v p = _ from h]

@[simp] theorem run_bytes (bs : Bytes) (p : Array UInt8) :
    (bytes bs).run p = ⟨p ++ bs, none⟩ := rfl

@[simp] theorem run_skip (p : Array UInt8) : skip.run p = ⟨p, none⟩ := rfl

@[simp] theorem run_fail (e : Error) (p : Array UInt8) : (fail e).run p = ⟨p, some e⟩ := rfl

end Writer
end OpenFlow
