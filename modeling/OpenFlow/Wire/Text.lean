import OpenFlow.Text
import OpenFlow.Wire.Reader
import OpenFlow.Wire.Writer

/-!
# Reading and writing text

A text in a field of a fixed width, read at a cursor or appended to a buffer.
A field that is cut short is reported by name.
-/

namespace OpenFlow

/-- Read a text from a field of a given width. -/
def Reader.text (width : Nat) (shortage : Shortage) : Reader String := do
  let c ← Reader.cursor
  if width ≤ c.remaining then return Text.read (← Reader.bytes width)
  else Reader.fail (.truncatedInput shortage)

/-- Read a description from a field of a given width. -/
def Reader.description (width : Nat) : Reader String := Reader.text width (.text width)

/-- Append a text in a field of a given width. -/
def Writer.text (width : Nat) (s : String) : Writer := Writer.bytes (Text.write width s)

end OpenFlow
