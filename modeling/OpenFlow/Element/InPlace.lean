import OpenFlow.Hello.Wire
import OpenFlow.Instruction.Wire
import OpenFlow.Meter.Wire
import OpenFlow.Queue.Wire
import OpenFlow.Table.Wire
import OpenFlow.Wire.Filler

/-!
# Reading elements in place

An element can be read into one that is there already, which may have been read before.  Its kind
stays, and what it holds is overwritten a field at a time: an output action that ends behind its
port has the new port and the old length.  A set-field action has room for a field and room for a
body that is kept; one of the two is filled at a time, and the other one is emptied then.

Main definitions:

* `Element.InPlace`: a family whose elements can be read in place.
* `Element.fillAll`: what the memory of an element holds after it was read some times.
-/

namespace OpenFlow

/-- A family whose elements can be read in place. -/
class Element.InPlace (ε : Type) [Element ε] where
  /-- What the memory of an element can hold. -/
  Memory : Type
  /-- The memory of an element. -/
  hold : ε → Memory
  /-- Read an element into the memory of one of its kind, from its header on. -/
  fill : Context → Filler Memory Unit

/-! ## Actions -/

namespace SetField

/-- What a set-field action has room for: a field, and a body that is kept. -/
structure Slots where
  field : Option OxmField
  raw : Bytes
  deriving DecidableEq

/-- The memory of the content of a set-field action. -/
def hold : SetField → Slots
  | known field => ⟨some field, []⟩
  | raw body => ⟨none, body⟩

/-- Read what follows the header of a set-field action into its memory. -/
def fill (ctx : Context) : Filler Slots Unit := do
  let start ← Filler.read Reader.cursor
  let _ ← Filler.read OxmHeader.peek
  match ← Filler.read (Reader.attempt (OxmField.read ctx.registries.fields)) with
  | .ok field =>
    Filler.modify fun slots => { slots with field := some field }
    Filler.modify fun slots => { slots with raw := [] }
  | .error (.unknownFieldType oxmClass field) =>
    if ctx.unknownFields = .skip then
      Filler.read (Reader.moveTo start)
      Filler.modify fun slots => { slots with field := none }
      let body ← Filler.read Reader.rest
      Filler.modify fun slots => { slots with raw := body }
    else Filler.read (Reader.fail (.unknownFieldType oxmClass field))
  | .error e => Filler.read (Reader.fail e)

end SetField

namespace Action

/-- Whether an action is a set-field action. -/
def IsSetField : Action → Prop
  | setField _ => True
  | _ => False

/-- What the memory of an action can hold. -/
inductive Memory where
  | setField (slots : SetField.Slots)
  /-- Any other action is held as it is. -/
  | plain (a : Action) (h : ¬ a.IsSetField)

/-- The memory of an action. -/
def hold (a : Action) : Memory :=
  match a with
  | setField content => .setField content.hold
  | output port maxLen => .plain (output port maxLen) id
  | copyTtlOut => .plain copyTtlOut id
  | copyTtlIn => .plain copyTtlIn id
  | setMplsTtl ttl => .plain (setMplsTtl ttl) id
  | decMplsTtl => .plain decMplsTtl id
  | pushVlan etherType => .plain (pushVlan etherType) id
  | popVlan => .plain popVlan id
  | pushMpls etherType => .plain (pushMpls etherType) id
  | popMpls etherType => .plain (popMpls etherType) id
  | setQueue i => .plain (setQueue i) id
  | group i => .plain (group i) id
  | setNwTtl ttl => .plain (setNwTtl ttl) id
  | decNwTtl => .plain decNwTtl id
  | pushPbb etherType => .plain (pushPbb etherType) id
  | popPbb => .plain popPbb id
  | unknown code length body => .plain (unknown code length body) id

/-- Read what follows the header of an action into the memory of one of its type. -/
def fillBody (ctx : Context) (declared : UInt16) : Filler Memory Unit := do
  match ← Filler.memory with
  | .setField slots => Filler.focus slots .setField (SetField.fill ctx)
  | .plain (output _ maxLen) _ =>
    let port ← Filler.read Reader.u32
    Filler.store (.plain (output port maxLen) id)
    let maxLen ← Filler.read Reader.u16
    Filler.store (.plain (output port maxLen) id)
    Filler.read (Reader.skip 6)
  | .plain (setMplsTtl _) _ =>
    let ttl ← Filler.read Reader.u8
    Filler.store (.plain (setMplsTtl ttl) id)
    Filler.read (Reader.skip 3)
  | .plain (setNwTtl _) _ =>
    let ttl ← Filler.read Reader.u8
    Filler.store (.plain (setNwTtl ttl) id)
    Filler.read (Reader.skip 3)
  | .plain (pushVlan _) _ =>
    let etherType ← Filler.read Reader.u16
    Filler.store (.plain (pushVlan etherType) id)
    Filler.read (Reader.skip 2)
  | .plain (pushMpls _) _ =>
    let etherType ← Filler.read Reader.u16
    Filler.store (.plain (pushMpls etherType) id)
    Filler.read (Reader.skip 2)
  | .plain (popMpls _) _ =>
    let etherType ← Filler.read Reader.u16
    Filler.store (.plain (popMpls etherType) id)
    Filler.read (Reader.skip 2)
  | .plain (pushPbb _) _ =>
    let etherType ← Filler.read Reader.u16
    Filler.store (.plain (pushPbb etherType) id)
    Filler.read (Reader.skip 2)
  | .plain (setQueue _) _ =>
    let i ← Filler.read Reader.u32
    Filler.store (.plain (setQueue i) id)
  | .plain (group _) _ =>
    let i ← Filler.read Reader.u32
    Filler.store (.plain (group i) id)
  | .plain (unknown code _ body) _ =>
    Filler.store (.plain (unknown code declared body) id)
    let body ← Filler.read Reader.rest
    Filler.store (.plain (unknown code declared body) id)
  | .plain copyTtlOut _ | .plain copyTtlIn _ | .plain decMplsTtl _ | .plain popVlan _
  | .plain decNwTtl _ | .plain popPbb _ => Filler.read (Reader.skip 4)
  | .plain (setField _) h => (h trivial).elim

/-- Read an action into the memory of one of its type. -/
def fill (ctx : Context) : Filler Memory Unit := do
  let (_, declared) ← Filler.read Element.readHeader
  fillBody ctx declared

end Action

instance : Element.InPlace Action where
  Memory := Action.Memory
  hold := Action.hold
  fill := Action.fill

/-! ## Instructions -/

namespace Instruction

/-- Read what follows the header of an instruction into one of its type. -/
def fillBody (ctx : Context) (declared : UInt16) : Filler Instruction Unit := do
  match ← Filler.memory with
  | gotoTable _ =>
    let tableId ← Filler.read Reader.u8
    Filler.store (gotoTable tableId)
    Filler.read (Reader.skip 3)
  | writeMetadata _ mask =>
    Filler.read (Reader.skip 4)
    let metadata ← Filler.read Reader.u64
    Filler.store (writeMetadata metadata mask)
    let mask ← Filler.read Reader.u64
    Filler.store (writeMetadata metadata mask)
  | writeActions _ =>
    let actions ← Filler.read (readActions ctx declared)
    Filler.store (writeActions actions)
  | applyActions _ =>
    let actions ← Filler.read (readActions ctx declared)
    Filler.store (applyActions actions)
  | clearActions => Filler.read (Reader.skip 4)
  | meter _ =>
    let i ← Filler.read Reader.u32
    Filler.store (meter i)
  | unknown code _ body =>
    Filler.store (unknown code declared body)
    let body ← Filler.read Reader.rest
    Filler.store (unknown code declared body)

/-- Read an instruction into one of its type. -/
def fill (ctx : Context) : Filler Instruction Unit := do
  let (_, declared) ← Filler.read Element.readHeader
  fillBody ctx declared

end Instruction

instance : Element.InPlace Instruction where
  Memory := Instruction
  hold := id
  fill := Instruction.fill

/-! ## Properties of queues -/

namespace QueueProperty

/-- Read what follows the header of a property into one of its type. -/
def fillBody (declared : UInt16) : Filler QueueProperty Unit := do
  match ← Filler.memory with
  | minRate _ =>
    let rate ← Filler.read Reader.u16
    Filler.store (minRate rate)
    Filler.read (Reader.skip 6)
  | maxRate _ =>
    let rate ← Filler.read Reader.u16
    Filler.store (maxRate rate)
    Filler.read (Reader.skip 6)
  | unknown code _ body =>
    Filler.store (unknown code declared body)
    let body ← Filler.read Reader.rest
    Filler.store (unknown code declared body)

/-- Read a property into one of its type. -/
def fill (_ : Context) : Filler QueueProperty Unit := do
  let (_, declared) ← Filler.read Element.readHeader
  Filler.read (Reader.skip 4)
  fillBody declared

end QueueProperty

instance : Element.InPlace QueueProperty where
  Memory := QueueProperty
  hold := id
  fill := QueueProperty.fill

/-! ## Elements of a hello -/

namespace HelloElement

/-- Read what follows the header of an element into one of its type. -/
def fillBody (declared : UInt16) : Filler HelloElement Unit := do
  match ← Filler.memory with
  | versionBitmap _ =>
    let count := (declared.toNat - Element.commonHeaderSize) / 4
    let bitmaps ← Filler.read (Reader.times Reader.u32 count)
    Filler.store (versionBitmap bitmaps)
  | unknown code _ body =>
    Filler.store (unknown code declared body)
    let body ← Filler.read Reader.rest
    Filler.store (unknown code declared body)

/-- Read an element into one of its type. -/
def fill (_ : Context) : Filler HelloElement Unit := do
  let (_, declared) ← Filler.read Element.readHeader
  fillBody declared

end HelloElement

instance : Element.InPlace HelloElement where
  Memory := HelloElement
  hold := id
  fill := HelloElement.fill

/-! ## Bands of a meter -/

namespace MeterBand

/-- Read what a band of some type does to packets into such a band. -/
def fillEffect (declared : UInt16) : Filler BandEffect Unit := do
  match ← Filler.memory with
  | .drop => Filler.read (Reader.skip 4)
  | .dscpRemark _ =>
    let precLevel ← Filler.read Reader.u8
    Filler.store (.dscpRemark precLevel)
    Filler.read (Reader.skip 3)
  | .experimenter _ body =>
    let i ← Filler.read Reader.u32
    Filler.store (.experimenter i body)
    let body ← Filler.read Reader.rest
    Filler.store (.experimenter i body)
  | .unknown code _ body =>
    Filler.store (.unknown code declared body)
    let body ← Filler.read Reader.rest
    Filler.store (.unknown code declared body)

/-- Read a band into one of its type. -/
def fill (_ : Context) : Filler MeterBand Unit := do
  let (_, declared) ← Filler.read Element.readHeader
  let rate ← Filler.read Reader.u32
  Filler.modify fun band => { band with rate }
  let burstSize ← Filler.read Reader.u32
  Filler.modify fun band => { band with burstSize }
  let band ← Filler.memory
  Filler.focus band.effect (fun effect => { band with effect }) (fillEffect declared)

end MeterBand

instance : Element.InPlace MeterBand where
  Memory := MeterBand
  hold := id
  fill := MeterBand.fill

/-! ## Properties of tables -/

namespace ElementId

/-- Read an element id into one that is there. -/
def fill (_ : Context) : Filler ElementId Unit := do
  let (code, length) ← Filler.read Element.readHeader
  Filler.modify fun e => { e with code }
  Filler.modify fun e => { e with length }
  let body ← Filler.read Reader.rest
  Filler.modify fun e => { e with body }

end ElementId

instance : Element.InPlace ElementId where
  Memory := ElementId
  hold := id
  fill := ElementId.fill

namespace TableProperty

/-- Read what follows the header of a property into one of its type. -/
def fillBody (ctx : Context) (declared : UInt16) : Filler TableProperty Unit := do
  let bodyLength := declared.toNat - Element.commonHeaderSize
  match ← Filler.memory with
  | instructions miss _ =>
    let ids ← Filler.read (Element.readList ctx bodyLength)
    Filler.store (instructions miss ids)
  | actions use miss _ =>
    let ids ← Filler.read (Element.readList ctx bodyLength)
    Filler.store (actions use miss ids)
  | nextTables miss _ =>
    let tables ← Filler.read Reader.rest
    Filler.store (nextTables miss tables)
  | fields use miss _ =>
    let headers ← Filler.read (Reader.times readFieldHeader (bodyLength / 4))
    Filler.store (fields use miss headers)
  | unknown code _ body =>
    Filler.store (unknown code declared body)
    let body ← Filler.read Reader.rest
    Filler.store (unknown code declared body)

/-- Read a property into one of its type. -/
def fill (ctx : Context) : Filler TableProperty Unit := do
  let (_, declared) ← Filler.read Element.readHeader
  fillBody ctx declared

end TableProperty

instance : Element.InPlace TableProperty where
  Memory := TableProperty
  hold := id
  fill := TableProperty.fill

/-! ## Reading again -/

namespace Element

variable {ε : Type} [Element ε] [InPlace ε]

/-- What the memory of an element holds after some readings into it, one after the other, each with
its own context and at its own cursor.  Any of them may fail. -/
def fillAll (readings : List (Context × Cursor)) (m : InPlace.Memory ε) : InPlace.Memory ε :=
  readings.foldl (fun m reading => ((InPlace.fill reading.1).run m reading.2).memory) m

-- An output action that is cut behind its port: the port is new, the length is the one of before.
example :
    fillAll [({}, Cursor.start [0, 0, 0, 16, 0, 0, 0, 7])] (InPlace.hold (Action.output 1 128)) =
      InPlace.hold (Action.output 7 128) := rfl

end Element
end OpenFlow
