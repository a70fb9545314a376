import OpenFlow.Context
import OpenFlow.Wire.Reader
import OpenFlow.Wire.Writer

/-!
# Families of elements and their lists

An element is a type code, a declared length that covers this header, and a
body.  A family of elements fixes how the body of each known type reads and
writes, what stands for a type that is not known, and how much room an element
takes in a list.

A list of elements fills a region of bytes.  Reading takes one element after the
other; it stops without an error where fewer than four bytes are left, where an
element would run past the region, where an element is too short for its own
type, and where the context allows no more members.  Either way the cursor ends
up at the end of the region.  The one thing that a list refuses by itself is an
element that declares a length below the header of its family.

Main definitions:

* `Element`: a family.
* `Element.readMembers`: the elements in a region of bytes.
* `Element.readList`, `Element.writeList`, `Element.listLength`: the wire form of
  a list.
* `Element.readListAt`: a list at a position of a buffer, where position and length
  are machine words.
-/

namespace OpenFlow

/-- A family of elements. -/
class Element (ε : Type) where
  /-- The name of the family, for error texts. -/
  family : String
  /-- The least length an element may declare. -/
  headerSize : Nat
  /-- The registry of the known types.  A family without one knows no type. -/
  registry? : Registries → Option (Registry ε)
  /-- The blank that stands for a type code that is not known, with the length the
  element declares. -/
  generic : UInt16 → UInt16 → ε
  /-- Read an element, from its header on, in the form of a blank.  The buffer ends
  where the element does. -/
  read : Context → ε → Reader ε
  /-- Append an element, from its header on. -/
  write : ε → Writer
  /-- The length an element declares. -/
  length : ε → Nat
  /-- The type code of an element. -/
  code : ε → UInt16
  /-- The room that an element of a declared length takes in a list. -/
  occupied : Nat → Nat := id

namespace Element

/-- The size of the header that all families share. -/
def commonHeaderSize : Nat := 4

/-- Read the type code and the declared length of an element. -/
def readHeader : Reader (UInt16 × UInt16) := do
  let code ← Reader.u16
  let length ← Reader.u16
  return (code, length)

/-- Append the type code and the declared length of an element. -/
def writeHeader (code : UInt16) (length : Nat) : Writer :=
  Writer.u16 code ++ Writer.length16 "TLV element" length

variable {ε : Type} [Element ε]

/-- The blank to read an element into: that of its type where the type is known. -/
def blank (ctx : Context) (code declared : UInt16) : ε :=
  match registry? ctx.registries with
  | none => generic code declared
  | some types => (types.lookup? code).getD (generic code declared)

/-- Read the elements in a region, at most as many as the allowance says. -/
def readMembers (ctx : Context) (allowance : Option Nat) (region : Bytes) : Reader (List ε) :=
  match region with
  | b₀ :: b₁ :: b₂ :: b₃ :: body =>
    if allowance = some 0 then return []
    else
      let code := UInt16.ofNat (Bytes.value [b₀, b₁])
      let declared := UInt16.ofNat (Bytes.value [b₂, b₃])
      if declared.toNat < headerSize ε then
        Reader.fail (.malformedHeader
          (.elementLength (family ε) declared.toNat (headerSize ε)))
      else
        let span := (b₀ :: b₁ :: b₂ :: b₃ :: body).take declared.toNat
        if span.length < declared.toNat then return []
        else do
          match ← Reader.attempt (Reader.within span (read ctx (blank ctx code declared))) with
          | .ok e =>
            return e :: (← readMembers ctx (allowance.map (· - 1))
              (body.drop (occupied ε declared.toNat - commonHeaderSize)))
          | .error e => if e.isTruncation then return [] else Reader.fail e
  | _ => return []
termination_by region.length
decreasing_by all_goals (simp only [List.length_cons, List.length_drop]; omega)

/-- Read the elements in the next `length` bytes.  A length inside of a message has 16
bits, so its sum with the position does not wrap. -/
def readList (ctx : Context) (length : Nat) : Reader (List ε) := do
  let c ← Reader.cursor
  let members ← readMembers ctx ctx.elementLimit (c.rest.take length)
  Reader.moveTo (c.advanceWithin length)
  return members

/-- Read the elements in the next `length` bytes from a position of a buffer on.  A
region whose end wraps is empty, and the cursor goes back to where the end is. -/
def readListAt (ctx : Context) (buf : Bytes) (start length : UInt64) : Outcome (List ε) :=
  let stop := Cursor.stop buf start length
  let reader : Reader (List ε) := do
    let members ← readMembers ctx ctx.elementLimit ((buf.take stop).drop start.toNat)
    Reader.moveTo (Cursor.at buf stop)
    return members
  reader.run (Cursor.at buf start.toNat)

/-- Append elements, each filled up with zeros to the room it takes. -/
def writeList (members : List ε) : Writer :=
  Writer.each (fun e => Writer.padded (occupied ε) (write e)) members

/-- The room that a list of elements takes. -/
def listLength (members : List ε) : Nat :=
  total (fun e => occupied ε (length e)) members

end Element
end OpenFlow
