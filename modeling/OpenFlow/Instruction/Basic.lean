import OpenFlow.Action.Basic

/-!
# Instructions

What a flow entry does with a packet it matches.  Two instructions carry a list
of actions.
-/

namespace OpenFlow

/-- Something a flow entry does with a packet it matches. -/
inductive Instruction where
  | gotoTable (tableId : UInt8)
  | writeMetadata (metadata mask : UInt64)
  | writeActions (actions : List Action)
  | applyActions (actions : List Action)
  | clearActions
  | meter (id : UInt32)
  | unknown (code length : UInt16) (body : Bytes)
  deriving DecidableEq

namespace Instruction

/-- The name of the family. -/
def family : String := "instruction"

/-- The type code of an instruction. -/
def code : Instruction → UInt16
  | gotoTable _ => 1
  | writeMetadata _ _ => 2
  | writeActions _ => 3
  | applyActions _ => 4
  | clearActions => 5
  | meter _ => 6
  | unknown code _ _ => code

/-- A blank instruction of each known type. -/
def blanks : List Instruction :=
  [gotoTable 0, writeMetadata 0 0, writeActions [], applyActions [], clearActions, meter 0]

/-- The registry of the known instruction types. -/
def types : Registry Instruction := ⟨family, blanks.map fun i => (i.code, i)⟩

end Instruction
end OpenFlow
