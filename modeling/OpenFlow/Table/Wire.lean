import OpenFlow.Element.List
import OpenFlow.Wire.Message
import OpenFlow.Wire.Text

/-!
# The wire form of table features

Each property of a table is padded to a multiple of eight bytes, which its own
length does not count.  The features of a table have a fixed part of sixty-four
bytes, with the name of the table in thirty-two of them, and then the
properties; their own length covers both.
-/

namespace OpenFlow

namespace ElementId

/-- The length an element id declares when it is written. -/
def writtenLength (e : ElementId) : Nat := Element.commonHeaderSize + e.body.length

/-- Read an element id. -/
def read (_ : Context) (_ : ElementId) : Reader ElementId := do
  let (code, length) ← Element.readHeader
  return ⟨code, length, ← Reader.rest⟩

/-- Append an element id. -/
def write (e : ElementId) : Writer :=
  Element.writeHeader e.code e.writtenLength ++ Writer.bytes e.body

end ElementId

instance : Element ElementId where
  family := ElementId.family
  headerSize := Element.commonHeaderSize
  registry? _ := none
  generic code length := ⟨code, length, []⟩
  read := ElementId.read
  write := ElementId.write
  length := ElementId.writtenLength
  code := ElementId.code

namespace TableProperty

/-- The number of bytes that follow the header of a property. -/
def bodyLength : TableProperty → Nat
  | instructions _ ids | actions _ _ ids => Element.listLength ids
  | nextTables _ tables => tables.length
  | fields _ _ headers => 4 * headers.length
  | unknown _ _ body => body.length

/-- The length a property declares. -/
def length (p : TableProperty) : Nat := Element.commonHeaderSize + p.bodyLength

/-- Read the header word of a match field. -/
def readFieldHeader : Reader OxmHeader := do
  return OxmHeader.ofWord (← Reader.u32)

/-- Read what follows the header of a property of the type of a blank one. -/
def readBody (ctx : Context) (declared : UInt16) (blank : TableProperty) :
    Reader TableProperty := do
  let bodyLength := declared.toNat - Element.commonHeaderSize
  match blank with
  | instructions miss _ => return instructions miss (← Element.readList ctx bodyLength)
  | actions use miss _ => return actions use miss (← Element.readList ctx bodyLength)
  | nextTables miss _ => return nextTables miss (← Reader.rest)
  | fields use miss _ => return fields use miss (← Reader.times readFieldHeader (bodyLength / 4))
  | unknown code _ _ => return unknown code declared (← Reader.rest)

/-- Read a property of the type of a blank one. -/
def read (ctx : Context) (blank : TableProperty) : Reader TableProperty := do
  let (_, declared) ← Element.readHeader
  readBody ctx declared blank

/-- Append what follows the header of a property. -/
def writeBody : TableProperty → Writer
  | instructions _ ids | actions _ _ ids => Element.writeList ids
  | nextTables _ tables => Writer.bytes tables
  | fields _ _ headers => Writer.each (fun h => Writer.u32 h.word) headers
  | unknown _ _ body => Writer.bytes body

/-- Append a property. -/
def write (p : TableProperty) : Writer := Element.writeHeader p.code p.length ++ p.writeBody

end TableProperty

instance : Element TableProperty where
  family := TableProperty.family
  headerSize := Element.commonHeaderSize
  registry? r := some r.tableProperties
  generic code length := .unknown code length []
  read := TableProperty.read
  write := TableProperty.write
  length := TableProperty.length
  code := TableProperty.code
  occupied := align8

namespace TableFeatures

/-- The size of the fixed part of the features of a table. -/
def fixedSize : Nat := 64

/-- The width of the name of a table. -/
def nameWidth : Nat := 32

/-- The number of bytes of the features of a table. -/
def size (t : TableFeatures) : Nat := fixedSize + Element.listLength t.properties

/-- Read the features of a table. -/
def read (ctx : Context) : Reader TableFeatures := do
  let length := (← Reader.u16).toNat
  if length < fixedSize then
    Reader.fail (.malformedHeader (.tableLength length))
  else
    let tableId ← Reader.u8
    Reader.skip 5
    let name ← Reader.text nameWidth .tableName
    let metadataMatch ← Reader.u64
    let metadataWrite ← Reader.u64
    let config ← Reader.u32
    let maxEntries ← Reader.u32
    let properties ← Element.readList ctx (length - fixedSize)
    return ⟨tableId, name, metadataMatch, metadataWrite, config, maxEntries, properties⟩

/-- Append the features of a table. -/
def write (t : TableFeatures) : Writer :=
  Writer.length16 "table features" t.size ++ Writer.u8 t.tableId ++ Writer.zeros 5
    ++ Writer.text nameWidth t.name ++ Writer.u64 t.metadataMatch
    ++ Writer.u64 t.metadataWrite ++ Writer.u32 t.config ++ Writer.u32 t.maxEntries
    ++ Element.writeList t.properties

end TableFeatures

instance : Message TableFeatures where
  size := TableFeatures.size
  read := TableFeatures.read
  write := TableFeatures.write

end OpenFlow
