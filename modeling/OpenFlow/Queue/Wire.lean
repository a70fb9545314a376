import OpenFlow.Element.List
import OpenFlow.Wire.Message

/-!
# The wire form of packet queues

The header of a property is followed by four padding bytes, which count as part
of the header.  A queue has a fixed part of sixteen bytes and then its
properties; its own length covers both.
-/

namespace OpenFlow
namespace QueueProperty

/-- The size of the header of a property. -/
def headerSize : Nat := 8

/-- The length a property declares. -/
def length : QueueProperty → Nat
  | minRate _ | maxRate _ => 16
  | unknown _ length _ => max length.toNat headerSize

/-- Read what follows the header of a property with a rate. -/
def readRate : Reader UInt16 := do
  let rate ← Reader.u16
  Reader.skip 6
  return rate

/-- Read what follows the header of a property of the type of a blank one. -/
def readBody (declared : UInt16) (blank : QueueProperty) : Reader QueueProperty := do
  match blank with
  | minRate _ => return minRate (← readRate)
  | maxRate _ => return maxRate (← readRate)
  | unknown code _ _ => return unknown code declared (← Reader.rest)

/-- Read a property of the type of a blank one. -/
def read (_ : Context) (blank : QueueProperty) : Reader QueueProperty := do
  let (_, declared) ← Element.readHeader
  Reader.skip 4
  readBody declared blank

/-- Append what follows the header of a property. -/
def writeBody : QueueProperty → Writer
  | minRate rate | maxRate rate => Writer.u16 rate ++ Writer.zeros 6
  | unknown _ length body => Writer.fitted (length.toNat - headerSize) body

/-- Append a property. -/
def write (p : QueueProperty) : Writer :=
  Element.writeHeader p.code p.length ++ Writer.zeros 4 ++ p.writeBody

end QueueProperty

instance : Element QueueProperty where
  family := QueueProperty.family
  headerSize := QueueProperty.headerSize
  registry? r := some r.queueProperties
  generic code length := .unknown code length []
  read := QueueProperty.read
  write := QueueProperty.write
  length := QueueProperty.length
  code := QueueProperty.code

namespace PacketQueue

/-- The size of the fixed part of a queue. -/
def fixedSize : Nat := 16

/-- The number of bytes of a queue. -/
def size (q : PacketQueue) : Nat := fixedSize + Element.listLength q.properties

/-- Read a queue. -/
def read (ctx : Context) : Reader PacketQueue := do
  let queueId ← Reader.u32
  let port ← Reader.u32
  let length := (← Reader.u16).toNat
  Reader.skip 6
  if length < fixedSize then
    Reader.fail (.malformedHeader (.queueLength length))
  else
    let properties ← Element.readList ctx (length - fixedSize)
    return ⟨queueId, port, properties⟩

/-- Append a queue. -/
def write (q : PacketQueue) : Writer :=
  Writer.u32 q.queueId ++ Writer.u32 q.port ++ Writer.length16 "packet queue" q.size
    ++ Writer.zeros 6 ++ Element.writeList q.properties

end PacketQueue

instance : Message PacketQueue where
  size := PacketQueue.size
  read := PacketQueue.read
  write := PacketQueue.write

end OpenFlow
