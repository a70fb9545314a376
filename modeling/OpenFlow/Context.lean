import OpenFlow.Multipart.Basic

/-!
# The context of reading

What the meaning of bytes depends on beside the bytes: the catalog of match
fields and the registries of element types, whose side of an exchange the bytes
are from, the port a packet came in by, what to do about match fields of an
unknown type, and how many members of a list to read at most.
-/

namespace OpenFlow

/-- The catalog of match fields and the registries of all families. -/
structure Registries where
  fields : FieldCatalog
  actions : Registry Action
  instructions : Registry Instruction
  queueProperties : Registry QueueProperty
  helloElements : Registry HelloElement
  meterBands : Registry MeterBand
  tableProperties : Registry TableProperty
  multipartRequests : Registry Body
  multipartReplies : Registry Body

namespace Registries

/-- Everything that is known. -/
def standard : Registries where
  fields := .basic
  actions := Action.types
  instructions := Instruction.types
  queueProperties := QueueProperty.types
  helloElements := HelloElement.types
  meterBands := MeterBand.types
  tableProperties := TableProperty.types
  multipartRequests := Body.requestTypes
  multipartReplies := Body.replyTypes

/-- Nothing known. -/
def empty : Registries where
  fields := .empty
  actions := .empty Action.family
  instructions := .empty Instruction.family
  queueProperties := .empty QueueProperty.family
  helloElements := .empty HelloElement.family
  meterBands := .empty MeterBand.family
  tableProperties := .empty TableProperty.family
  multipartRequests := .empty Body.requestFamily
  multipartReplies := .empty Body.replyFamily

/-- The registry of the bodies of one direction. -/
def multipart (r : Registries) : Direction → Registry Body
  | .request => r.multipartRequests
  | .reply => r.multipartReplies

end Registries

/-- What to do about a match field of an unknown type. -/
inductive UnknownFields where
  | skip
  | reject
  deriving DecidableEq, Repr

/-- The port number that stands for any port. -/
def anyPort : UInt32 := 0xffffffff

/-- What the meaning of bytes depends on beside the bytes. -/
structure Context where
  registries : Registries := .standard
  /-- Whose side of an exchange the bytes are from, where that is known. -/
  direction : Option Direction := none
  /-- The port a packet came in by. -/
  inPort : UInt32 := anyPort
  unknownFields : UnknownFields := .skip
  /-- How many members of a list are read at most. -/
  elementLimit : Option Nat := none

end OpenFlow
