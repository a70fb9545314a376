import OpenFlow.Wire.Reader
import OpenFlow.Wire.Writer

/-!
# The header of a message

Every message opens with eight bytes: the version of the protocol, the type code
of the message, its length, header included, and a transaction id.  A header
whose length does not even cover the header itself is malformed.
-/

namespace OpenFlow

/-- The header of a message. -/
structure MessageHeader where
  version : UInt8
  code : UInt8
  length : UInt16
  xid : UInt32
  deriving DecidableEq, Repr

namespace MessageHeader

/-- The size of a header. -/
def size : Nat := 8

/-- The version of the protocol that messages are written in. -/
def currentVersion : UInt8 := 4

/-- The kind of message the header announces, if its type code names one. -/
def kind? (h : MessageHeader) : Option MessageKind := MessageKind.ofCode? h.code

/-- Read a header. -/
def read : Reader MessageHeader := do
  let version ← Reader.u8
  let code ← Reader.u8
  let length ← Reader.u16
  let xid ← Reader.u32
  if length.toNat < size then
    Reader.fail (.malformedHeader (.messageLength length.toNat))
  else
    return ⟨version, code, length, xid⟩

/-- Write a header. -/
def write (h : MessageHeader) : Writer :=
  Writer.u8 h.version ++ Writer.u8 h.code ++ Writer.u16 h.length ++ Writer.u32 h.xid

/-- Write the header of a message of `length` bytes, in the current version. -/
def announce (what : String) (kind : MessageKind) (length : Nat) (xid : UInt32) : Writer :=
  match fitLength what length with
  | .ok length => write ⟨currentVersion, kind.code, length, xid⟩
  | .error e => Writer.fail e

end MessageHeader
end OpenFlow
