import OpenFlow.Element.Registry
import OpenFlow.Oxm.Field

/-!
# Actions

What a switch does to a packet.  A set-field action writes one match field; one
that was read around a field of an unknown type keeps its body as it came.  An
action whose code is not known keeps its declared length and its body.

Main definitions:

* `Action.code`: the type code on the wire.
* `Action.types`: the registry of the known codes.
* `Action.settingField`: a set-field action, refused for pipeline fields.
-/

namespace OpenFlow

/-- What a set-field action carries. -/
inductive SetField where
  /-- The field to write. -/
  | known (field : OxmField)
  /-- The body around a field of an unknown type, padding included. -/
  | raw (body : Bytes)
  deriving DecidableEq

/-- Something to do with a packet. -/
inductive Action where
  | output (port : UInt32) (maxLen : UInt16)
  | copyTtlOut
  | copyTtlIn
  | setMplsTtl (ttl : UInt8)
  | decMplsTtl
  | pushVlan (etherType : UInt16)
  | popVlan
  | pushMpls (etherType : UInt16)
  | popMpls (etherType : UInt16)
  | setQueue (id : UInt32)
  | group (id : UInt32)
  | setNwTtl (ttl : UInt8)
  | decNwTtl
  | setField (content : SetField)
  | pushPbb (etherType : UInt16)
  | popPbb
  | unknown (code length : UInt16) (body : Bytes)
  deriving DecidableEq

namespace Action

/-- The name of the family. -/
def family : String := "action"

/-- The type code of an action. -/
def code : Action → UInt16
  | output _ _ => 0
  | copyTtlOut => 11
  | copyTtlIn => 12
  | setMplsTtl _ => 15
  | decMplsTtl => 16
  | pushVlan _ => 17
  | popVlan => 18
  | pushMpls _ => 19
  | popMpls _ => 20
  | setQueue _ => 21
  | group _ => 22
  | setNwTtl _ => 23
  | decNwTtl => 24
  | setField _ => 25
  | pushPbb _ => 26
  | popPbb => 27
  | unknown code _ _ => code

/-- A blank action of each known type. -/
def blanks : List Action :=
  [output 0 0, copyTtlOut, copyTtlIn, setMplsTtl 0, decMplsTtl, pushVlan 0, popVlan,
   pushMpls 0, popMpls 0, setQueue 0, group 0, setNwTtl 0, decNwTtl, setField (.raw []),
   pushPbb 0, popPbb]

/-- The registry of the known action types. -/
def types : Registry Action := ⟨family, blanks.map fun a => (a.code, a)⟩

/-- The port that stands for the controller. -/
def controllerPort : UInt32 := 0xfffffffd

/-- Send a packet to the controller, cut to a length. -/
def toController (maxLen : UInt16) : Action := output controllerPort maxLen

/-- A set-field action, unless the field is one of the pipeline's. -/
def settingField (field : OxmField) : Except Error Action := do
  field.descriptor.check .setField
  return setField (.known field)

end Action
end OpenFlow
