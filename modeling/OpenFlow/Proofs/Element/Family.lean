import OpenFlow.Hello.Wire
import OpenFlow.Instruction.Wire
import OpenFlow.Meter.Wire
import OpenFlow.Queue.Wire
import OpenFlow.Table.Wire

/-!
# The seven families

The families of elements, as the values of one type, so that a statement about every
family is one statement.  What the framing of a list relies on is little, and it is a
class: an element declares at least the header that all families share, and the room
it takes in a list is at least what it declares.

Main definitions:

* `Element.Framed`: what the framing of a list relies on.
* `Family`, `Family.Member`: the families and their elements.
-/

namespace OpenFlow

/-- A family whose headers hold the common header, and whose elements fit the room that
they take. -/
class Element.Framed (ε : Type) [Element ε] : Prop where
  commonHeaderSize_le : Element.commonHeaderSize ≤ Element.headerSize ε
  le_occupied (n : Nat) : n ≤ Element.occupied ε n

namespace Action

instance : Element.Framed Action where
  commonHeaderSize_le := Nat.le_refl _
  le_occupied n := Nat.le_refl n

end Action

namespace Instruction

instance : Element.Framed Instruction where
  commonHeaderSize_le := Nat.le_refl _
  le_occupied n := Nat.le_refl n

end Instruction

namespace QueueProperty

instance : Element.Framed QueueProperty where
  commonHeaderSize_le := by decide
  le_occupied n := Nat.le_refl n

end QueueProperty

namespace HelloElement

instance : Element.Framed HelloElement where
  commonHeaderSize_le := Nat.le_refl _
  le_occupied := le_align8

end HelloElement

namespace MeterBand

instance : Element.Framed MeterBand where
  commonHeaderSize_le := by decide
  le_occupied n := Nat.le_refl n

end MeterBand

namespace TableProperty

instance : Element.Framed TableProperty where
  commonHeaderSize_le := Nat.le_refl _
  le_occupied := le_align8

end TableProperty

namespace ElementId

instance : Element.Framed ElementId where
  commonHeaderSize_le := Nat.le_refl _
  le_occupied n := Nat.le_refl n

end ElementId

/-! ## All of them -/

/-- The families of elements. -/
inductive Family where
  | action
  | instruction
  | queueProperty
  | helloElement
  | meterBand
  | tableProperty
  | elementId
  deriving DecidableEq, Repr

namespace Family

/-- The elements of a family. -/
def Member : Family → Type
  | action => Action
  | instruction => Instruction
  | queueProperty => QueueProperty
  | helloElement => HelloElement
  | meterBand => MeterBand
  | tableProperty => TableProperty
  | elementId => ElementId

instance (F : Family) : Element F.Member :=
  match F with
  | action => inferInstanceAs (Element Action)
  | instruction => inferInstanceAs (Element Instruction)
  | queueProperty => inferInstanceAs (Element QueueProperty)
  | helloElement => inferInstanceAs (Element HelloElement)
  | meterBand => inferInstanceAs (Element MeterBand)
  | tableProperty => inferInstanceAs (Element TableProperty)
  | elementId => inferInstanceAs (Element ElementId)

instance (F : Family) : Element.Framed F.Member :=
  match F with
  | action => inferInstanceAs (Element.Framed Action)
  | instruction => inferInstanceAs (Element.Framed Instruction)
  | queueProperty => inferInstanceAs (Element.Framed QueueProperty)
  | helloElement => inferInstanceAs (Element.Framed HelloElement)
  | meterBand => inferInstanceAs (Element.Framed MeterBand)
  | tableProperty => inferInstanceAs (Element.Framed TableProperty)
  | elementId => inferInstanceAs (Element.Framed ElementId)

end Family
end OpenFlow
