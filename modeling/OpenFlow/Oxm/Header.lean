import OpenFlow.Wire.Reader
import OpenFlow.Oxm.Descriptor

/-!
# The header word of a match field

A match field opens with a 32-bit word that packs four numbers: from the high
end, the class in 16 bits, the field code in seven, the mask bit in one and the
length of what follows in eight.

Main definitions:

* `OxmHeader.ofWord`, `OxmHeader.word`: unpacking and packing.
* `OxmHeader.wireLength`: the bytes of a whole field, judged by its header alone.
-/

namespace OpenFlow

/-- The unpacked header word of a match field. -/
structure OxmHeader where
  oxmClass : UInt16
  field : UInt8
  hasMask : Bool
  length : UInt8
  deriving DecidableEq, Repr

namespace OxmHeader

/-- The size of a header word. -/
def size : Nat := 4

/-- How many copies of a payload follow a header: a value, and a mask where the
mask bit is set. -/
def copiesOf (hasMask : Bool) : Nat := if hasMask then 2 else 1

/-- The header of a field of a given type. -/
def ofDescriptor (d : FieldDescriptor) (hasMask : Bool) : OxmHeader :=
  ⟨d.oxmClass, d.field, hasMask, d.width⟩

/-- Unpack a header word. -/
def ofWord (word : UInt32) : OxmHeader where
  oxmClass := (word >>> 16).toUInt16
  field := ((word >>> 9) &&& 0x7f).toUInt8
  hasMask := testBit 8 word.toUInt64
  length := (word &&& 0xff).toUInt8

/-- Pack a header into its word.  Of the field code, seven bits are kept. -/
def word (h : OxmHeader) : UInt32 :=
  (setBit 8 (h.oxmClass.toUInt64 <<< 16 ||| (h.field &&& 0x7f).toUInt64 <<< 9
    ||| h.length.toUInt64) h.hasMask).toUInt32

/-- The bytes a field with this header spans, judged by the header alone. -/
def wireLength (h : OxmHeader) : Nat :=
  size + h.length.toNat * copiesOf h.hasMask

/-- The header at the front of a string of bytes, if four bytes are there. -/
def peek? (bs : Bytes) : Option OxmHeader :=
  match bs with
  | b₀ :: b₁ :: b₂ :: b₃ :: _ => some (ofWord (UInt32.ofNat (Bytes.value [b₀, b₁, b₂, b₃])))
  | _ => none

/-- Read the header at the cursor and stay in front of it. -/
def peek : Reader OxmHeader := do
  let c ← Reader.cursor
  match peek? c.rest with
  | some h => return h
  | none => Reader.fail (.truncatedInput (.fieldHeader c.pos))

end OxmHeader
end OpenFlow
