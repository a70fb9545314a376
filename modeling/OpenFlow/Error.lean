import OpenFlow.Message.Kind

/-!
# Errors

An error says why a value could not be built, read or written.  Each
constructor is one cause; the two causes that have several forms, input that is
cut short and a header that contradicts itself, name the form by a type of their
own.  `Error.message` is the one place where an error becomes text.
-/

namespace OpenFlow

/-- What was being read when the input ended. -/
inductive Shortage where
  /-- A word or a run of bytes. -/
  | bytes
  /-- A run of `count` padding bytes at a position. -/
  | padding (count offset : Nat)
  /-- The header word of a match field. -/
  | fieldHeader (offset : Nat)
  /-- The name of a flow table. -/
  | tableName
  /-- A description of a fixed width. -/
  | text (width : Nat)
  deriving DecidableEq, Repr

/-- What is wrong with a header that was read in full. -/
inductive HeaderFault where
  /-- A message shorter than its own header. -/
  | messageLength (length : Nat)
  /-- A message that was to be a hello. -/
  | notHello (kind : Option MessageKind)
  /-- A message that was to be a multipart message. -/
  | notMultipart (kind : Option MessageKind)
  /-- A multipart message shorter than its header. -/
  | multipartLength (length : Nat)
  /-- A match shorter than its header. -/
  | matchLength (length : Nat)
  /-- A match of the fixed layout shorter than that layout. -/
  | fixedMatchLength (length required : Nat)
  /-- A match of neither layout. -/
  | matchType (code : UInt16)
  /-- An element of a family, shorter than the header of that family. -/
  | elementLength (family : String) (length header : Nat)
  /-- A queue description shorter than its fixed part. -/
  | queueLength (length : Nat)
  /-- A table description shorter than its fixed part. -/
  | tableLength (length : Nat)
  deriving DecidableEq, Repr

/-- Why a value could not be built, read or written. -/
inductive Error where
  /-- A match field whose type is not in the catalog. -/
  | unknownFieldType (oxmClass : UInt16) (field : UInt8)
  /-- A type code that a registry does not know. -/
  | unknownElementType (family : String) (code : UInt16)
  /-- The input ended too early. -/
  | truncatedInput (shortage : Shortage)
  /-- A header that contradicts itself or its place. -/
  | malformedHeader (fault : HeaderFault)
  /-- A mask on a field that takes none. -/
  | unsupportedMask (field : String)
  /-- A field that a set-field action may not write. -/
  | disallowedField (field : String)
  /-- A value of the wrong width for its field. -/
  | valueLengthMismatch (field : String) (expected found : Nat)
  /-- A length that its 16-bit field cannot hold. -/
  | lengthOverflow (what : String) (length : Nat)
  /-- Multipart bodies read without knowing whose side they are from. -/
  | missingDirection
  deriving DecidableEq, Repr

/-- Whether an error reports input that ended too early. -/
def Error.isTruncation : Error → Bool
  | .truncatedInput _ => true
  | _ => false

/-! ## Wording -/

/-- A 16-bit word as `0x` and four hexadecimal digits. -/
def hexWord (n : UInt16) : String :=
  let digits := Nat.toDigits 16 n.toNat
  "0x" ++ String.ofList (List.replicate (4 - digits.length) '0' ++ digits)

/-- The wording of an absent or present message kind. -/
def MessageKind.describe : Option MessageKind → String
  | none => "None"
  | some k => s!"Some({k.name})"

/-- The wording of a shortage. -/
def Shortage.reason : Shortage → String
  | bytes => "failed to fill whole buffer"
  | padding count offset => s!"{count} padding bytes at offset {offset}"
  | fieldHeader offset => s!"OXM header at offset {offset}"
  | tableName => "table name"
  | text width => s!"{width}-byte string"

/-- What kind of header a fault is found in. -/
def HeaderFault.header : HeaderFault → String
  | messageLength _ => "message"
  | notHello _ => "hello"
  | notMultipart _ | multipartLength _ => "multipart"
  | matchLength _ | fixedMatchLength _ _ | matchType _ => "match"
  | elementLength family _ _ => family
  | queueLength _ => "packet queue"
  | tableLength _ => "table features"

/-- The wording of a fault. -/
def HeaderFault.reason : HeaderFault → String
  | messageLength n => s!"length {n} is shorter than the header"
  | notHello k => s!"message type {MessageKind.describe k} is not a hello"
  | notMultipart k => s!"message type {MessageKind.describe k} is not a multipart message"
  | multipartLength n => s!"length {n} is shorter than the multipart header"
  | matchLength n => s!"length {n} is shorter than the match header"
  | fixedMatchLength n required => s!"standard match length {n} is shorter than {required}"
  | matchType code => s!"unknown match type {code.toNat}"
  | elementLength _ n header => s!"declared length {n} is shorter than the {header}-byte header"
  | queueLength n => s!"length {n} is shorter than the queue header"
  | tableLength n => s!"length {n} is shorter than the fixed part"

/-- The wording of an error. -/
def Error.message : Error → String
  | unknownFieldType c f => s!"unknown OXM field type: class {hexWord c}, field {f.toNat}"
  | unknownElementType family code => s!"unknown {family} type code {hexWord code}"
  | truncatedInput shortage => s!"truncated input: {shortage.reason}"
  | malformedHeader fault => s!"malformed {fault.header} header: {fault.reason}"
  | unsupportedMask field => s!"OXM field {field} does not allow a mask"
  | disallowedField field => s!"OXM field {field} is not allowed in a set-field action"
  | valueLengthMismatch field expected found =>
      s!"OXM field {field} expects a {expected}-byte value, got {found} bytes"
  | lengthOverflow what n => s!"{what} length {n} does not fit a 16-bit length field"
  | missingDirection => "decode context is missing the multipart direction"

end OpenFlow
