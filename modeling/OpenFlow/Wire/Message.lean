import OpenFlow.Context
import OpenFlow.Wire.Reader
import OpenFlow.Wire.Writer

/-!
# Things that stand on their own on the wire

A message here is whatever has a wire form of its own: a match field, a match, a
statistics record, a whole message with its header.  It has a size, a reader and
a writer.

* `Message.decode`: read a value from the front of a buffer.
* `Message.encode`: the wire form of a value.
-/

namespace OpenFlow

/-- A type whose values have a wire form of their own. -/
class Message (α : Type) where
  /-- The number of bytes of the wire form, with any padding at its end. -/
  size : α → Nat
  /-- Read a value at the cursor, which then stands just behind it. -/
  read : Context → Reader α
  /-- Append the wire form of a value. -/
  write : α → Writer

namespace Message

variable {α : Type} [Message α]

/-- A value at the front of a buffer, with the number of bytes it takes. -/
def decode (ctx : Context) (buffer : Bytes) : Except Error (α × Nat) :=
  let outcome := (read ctx).run (Cursor.start buffer)
  outcome.result.map fun a => (a, outcome.cursor.pos)

/-- The wire form of a value, in a buffer of its own. -/
def encode (a : α) : Except Error Bytes := (write a).encode

end Message

instance : Message OxmField where
  size := OxmField.size
  read ctx := OxmField.read ctx.registries.fields
  write := OxmField.write

end OpenFlow
