import OpenFlow.Bytes
import OpenFlow.Element.Registry

/-!
# Packet queues

A queue of a port, with its properties.  Rates are in tenths of a percent of the
speed of the link.
-/

namespace OpenFlow

/-- A property of a queue. -/
inductive QueueProperty where
  | minRate (rate : UInt16)
  | maxRate (rate : UInt16)
  | unknown (code length : UInt16) (body : Bytes)
  deriving DecidableEq, Repr

namespace QueueProperty

/-- The name of the family. -/
def family : String := "queue property"

/-- The type code of a property. -/
def code : QueueProperty → UInt16
  | minRate _ => 1
  | maxRate _ => 2
  | unknown code _ _ => code

/-- A blank property of each known type. -/
def blanks : List QueueProperty := [minRate 0, maxRate 0]

/-- The registry of the known property types. -/
def types : Registry QueueProperty := ⟨family, blanks.map fun p => (p.code, p)⟩

end QueueProperty

/-- A queue of a port. -/
structure PacketQueue where
  queueId : UInt32
  port : UInt32
  properties : List QueueProperty
  deriving DecidableEq, Repr

end OpenFlow
