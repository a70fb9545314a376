import OpenFlow.Element.List
import OpenFlow.Message.Header
import OpenFlow.Wire.Message

/-!
# The wire form of hello messages

Each element of a hello is padded to a multiple of eight bytes, which its own
length does not count.
-/

namespace OpenFlow
namespace HelloElement

/-- The length an element declares. -/
def length : HelloElement → Nat
  | versionBitmap bitmaps => Element.commonHeaderSize + 4 * bitmaps.length
  | unknown _ _ body => Element.commonHeaderSize + body.length

/-- Read what follows the header of an element of the type of a blank one. -/
def readBody (declared : UInt16) (blank : HelloElement) : Reader HelloElement := do
  match blank with
  | versionBitmap _ =>
    let count := (declared.toNat - Element.commonHeaderSize) / 4
    return versionBitmap (← Reader.times Reader.u32 count)
  | unknown code _ _ => return unknown code declared (← Reader.rest)

/-- Read an element of the type of a blank one. -/
def read (_ : Context) (blank : HelloElement) : Reader HelloElement := do
  let (_, declared) ← Element.readHeader
  readBody declared blank

/-- Append what follows the header of an element. -/
def writeBody : HelloElement → Writer
  | versionBitmap bitmaps => Writer.each Writer.u32 bitmaps
  | unknown _ _ body => Writer.bytes body

/-- Append an element. -/
def write (e : HelloElement) : Writer := Element.writeHeader e.code e.length ++ e.writeBody

end HelloElement

instance : Element HelloElement where
  family := HelloElement.family
  headerSize := Element.commonHeaderSize
  registry? r := some r.helloElements
  generic code length := .unknown code length []
  read := HelloElement.read
  write := HelloElement.write
  length := HelloElement.length
  code := HelloElement.code
  occupied := align8

namespace Hello

/-- The number of bytes of a hello. -/
def size (h : Hello) : Nat := MessageHeader.size + Element.listLength h.elements

/-- Read a hello. -/
def read (ctx : Context) : Reader Hello := do
  let header ← MessageHeader.read
  if header.kind? = some .hello then
    let elements ← Element.readList ctx (header.length.toNat - MessageHeader.size)
    return ⟨header.xid, elements⟩
  else
    Reader.fail (.malformedHeader (.notHello header.kind?))

/-- Append a hello. -/
def write (h : Hello) : Writer :=
  MessageHeader.announce "hello" .hello h.size h.xid ++ Element.writeList h.elements

end Hello

instance : Message Hello where
  size := Hello.size
  read := Hello.read
  write := Hello.write

end OpenFlow
