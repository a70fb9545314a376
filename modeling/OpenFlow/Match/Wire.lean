import OpenFlow.Match.FixedLayout
import OpenFlow.Wire.Message

/-!
# The wire form of a match

A match is written as a type, a length that covers this header and the fields,
the fields, and zero bytes up to a multiple of eight.  Reading takes the fields
from the bytes the length covers, one after the other, and sets each in turn.  It
stops without an error at a field that would run past the end.  A field of an
unknown type is passed over by the length in its own header, or refused, as the
context says; the cursor then stays in front of it.  A match of the fixed layout is
read as the fields it stands for.

Main definitions:

* `Match.readFields`: the fields in a region of bytes.
* `Match.read`, `Match.write`: the wire form.
-/

namespace OpenFlow
namespace Match

/-- The type code of a match of fields. -/
def oxmCode : UInt16 := 1

/-- The type code of a match of the fixed layout. -/
def fixedCode : UInt16 := 0

/-- Read the known fields in a region, up to one that runs past its end.  The cursor
goes along, from the front of the region to behind the last field. -/
def readFields (ctx : Context) (region : Bytes) : Reader (List OxmField) :=
  match region with
  | b₀ :: b₁ :: b₂ :: b₃ :: payload =>
    let header := OxmHeader.ofWord (UInt32.ofNat (Bytes.value [b₀, b₁, b₂, b₃]))
    match ctx.registries.fields.lookup? header.oxmClass header.field with
    | some d =>
      let width := d.width.toNat * OxmHeader.copiesOf header.hasMask
      if (payload.take width).length < width then return []
      else do
        let field ← Reader.within (b₀ :: b₁ :: b₂ :: b₃ :: payload.take width)
          (OxmField.read ctx.registries.fields)
        Reader.pass (OxmHeader.size + width)
        return field :: (← readFields ctx (payload.drop width))
    | none =>
      if ctx.unknownFields = .reject then
        Reader.fail (.unknownFieldType header.oxmClass header.field)
      else
        let width := header.wireLength - OxmHeader.size
        if (payload.take width).length < width then return []
        else do
          Reader.pass header.wireLength
          readFields ctx (payload.drop width)
  | _ => return []
termination_by region.length
decreasing_by all_goals (simp only [List.length_cons, List.length_drop]; omega)

/-- Read a match. -/
def read (ctx : Context) : Reader Match := do
  let start ← Reader.cursor
  let code ← Reader.u16
  let length := (← Reader.u16).toNat
  if length < headerSize then
    Reader.fail (.malformedHeader (.matchLength length))
  else if code = oxmCode then
    let c ← Reader.cursor
    let fields ← readFields ctx (c.rest.take (length - headerSize))
    Reader.moveTo (start.advanceWithin (align8 length))
    return ofFields fields
  else if code = fixedCode then
    if length < FixedLayout.size then
      Reader.fail (.malformedHeader (.fixedMatchLength length FixedLayout.size))
    else
      let m ← FixedLayout.readBody
      Reader.moveTo (start.advanceWithin length)
      return m
  else
    Reader.fail (.malformedHeader (.matchType code))

/-- Write a match. -/
def write (m : Match) : Writer :=
  Writer.u16 oxmCode ++ Writer.u16 m.length ++ Writer.each OxmField.write m.fields
    ++ Writer.zeros (padding8 m.length.toNat)

end Match

instance : Message Match where
  size := Match.size
  read := Match.read
  write := Match.write

end OpenFlow
