import OpenFlow.Bytes
import OpenFlow.Element.Registry

/-!
# Hello messages

The first message on a connection.  A version bitmap in it advertises the
versions of the protocol that its sender speaks: bit `v` of the words laid end
to end, lowest bit first, stands for version `v`.

Main definitions:

* `HelloElement.supporting`: the bitmap that advertises a list of versions.
* `Hello.supports`: whether a hello advertises a version.
-/

namespace OpenFlow

/-- An element of a hello. -/
inductive HelloElement where
  | versionBitmap (bitmaps : List UInt32)
  | unknown (code length : UInt16) (body : Bytes)
  deriving DecidableEq, Repr

namespace HelloElement

/-- The name of the family. -/
def family : String := "hello element"

/-- The type code of an element. -/
def code : HelloElement → UInt16
  | versionBitmap _ => 1
  | unknown code _ _ => code

/-- A blank element of each known type. -/
def blanks : List HelloElement := [versionBitmap []]

/-- The registry of the known element types. -/
def types : Registry HelloElement := ⟨family, blanks.map fun e => (e.code, e)⟩

/-- The number of words that the bits of all versions need, and one at least. -/
def wordCount (versions : List UInt8) : Nat :=
  versions.foldl (fun n v => max n (v.toNat / 32 + 1)) 1

/-- The word that holds the bits `32 * i`, …, `32 * i + 31` of some versions. -/
def bitmapWord (versions : List UInt8) (i : Nat) : UInt32 :=
  versions.foldl
    (fun word v => if v.toNat / 32 = i then word ||| (1 <<< UInt32.ofNat (v.toNat % 32)) else word)
    0

/-- The bitmap that advertises a list of versions. -/
def supporting (versions : List UInt8) : HelloElement :=
  versionBitmap ((List.range (wordCount versions)).map (bitmapWord versions))

/-- Whether an element advertises a version. -/
def supports (version : UInt8) : HelloElement → Bool
  | versionBitmap bitmaps =>
    match bitmaps[version.toNat / 32]? with
    | some word => testBit (UInt64.ofNat (version.toNat % 32)) word.toUInt64
    | none => false
  | unknown _ _ _ => false

end HelloElement

/-- A hello message. -/
structure Hello where
  xid : UInt32
  elements : List HelloElement
  deriving DecidableEq, Repr

/-- Whether a hello advertises a version. -/
def Hello.supports (h : Hello) (version : UInt8) : Bool :=
  h.elements.any (·.supports version)

end OpenFlow
