import OpenFlow.Action.Wire

/-!
# The wire form of instructions

An instruction with actions has four padding bytes and then the list of actions,
which takes up the rest of its declared length.
-/

namespace OpenFlow
namespace Instruction

/-- What precedes a list of actions: the header and four padding bytes. -/
def actionsOffset : Nat := 8

/-- The length an instruction declares. -/
def length : Instruction → Nat
  | writeMetadata _ _ => 24
  | writeActions actions | applyActions actions => actionsOffset + Element.listLength actions
  | unknown _ length _ => max length.toNat Element.commonHeaderSize
  | _ => 8

/-- Read what follows the header of an instruction with actions. -/
def readActions (ctx : Context) (declared : UInt16) : Reader (List Action) := do
  Reader.skip 4
  Element.readList ctx (declared.toNat - actionsOffset)

/-- Read what follows the header of an instruction of the type of a blank one. -/
def readBody (ctx : Context) (declared : UInt16) (blank : Instruction) : Reader Instruction := do
  match blank with
  | gotoTable _ =>
    let tableId ← Reader.u8
    Reader.skip 3
    return gotoTable tableId
  | writeMetadata _ _ =>
    Reader.skip 4
    let metadata ← Reader.u64
    let mask ← Reader.u64
    return writeMetadata metadata mask
  | writeActions _ => return writeActions (← readActions ctx declared)
  | applyActions _ => return applyActions (← readActions ctx declared)
  | clearActions =>
    Reader.skip 4
    return clearActions
  | meter _ => return meter (← Reader.u32)
  | unknown code _ _ => return unknown code declared (← Reader.rest)

/-- Read an instruction of the type of a blank one. -/
def read (ctx : Context) (blank : Instruction) : Reader Instruction := do
  let (_, declared) ← Element.readHeader
  readBody ctx declared blank

/-- Append what follows the header of an instruction. -/
def writeBody : Instruction → Writer
  | gotoTable tableId => Writer.u8 tableId ++ Writer.zeros 3
  | writeMetadata metadata mask => Writer.zeros 4 ++ Writer.u64 metadata ++ Writer.u64 mask
  | writeActions actions | applyActions actions =>
    Writer.zeros 4 ++ Element.writeList actions
  | clearActions => Writer.zeros 4
  | meter id => Writer.u32 id
  | unknown _ length body => Writer.fitted (length.toNat - Element.commonHeaderSize) body

/-- Append an instruction. -/
def write (i : Instruction) : Writer := Element.writeHeader i.code i.length ++ i.writeBody

end Instruction

instance : Element Instruction where
  family := Instruction.family
  headerSize := Element.commonHeaderSize
  registry? r := some r.instructions
  generic code length := .unknown code length []
  read := Instruction.read
  write := Instruction.write
  length := Instruction.length
  code := Instruction.code

end OpenFlow
