import OpenFlow.Oxm.Catalog
import OpenFlow.Oxm.Header
import OpenFlow.Oxm.Value

/-!
# Match fields

A match field is a value of the type its descriptor lays out, with a mask of the
same form or without one.  On the wire it is a header word, the value, and the
mask if there is one.  Reading takes the width of the payload from the catalog;
a length in the header that disagrees with the catalog only raises a warning.
One other length is not a disagreement: twice the width of a field with a mask,
which counts the mask.

Main definitions:

* `OxmField.exact`, `OxmField.masked`: the two ways to build a field.
* `OxmField.read`, `OxmField.write`: the wire form.
* `FieldDescriptor.check`: the fields a place in a message refuses.
-/

namespace OpenFlow

/-- Refuse a field that a place does not take. -/
def FieldDescriptor.check (d : FieldDescriptor) (place : FieldPlace) : Except Error Unit :=
  if d.allowedIn place then .ok () else .error (.disallowedField d.name)

/-- A typed value with an optional mask. -/
structure OxmField where
  descriptor : FieldDescriptor
  value : OxmValue
  mask : Option OxmValue
  value_fits : value.fits descriptor.width.toNat
  mask_fits : mask.all (·.fits descriptor.width.toNat)
  deriving DecidableEq

namespace OxmField

/-- The type of the field: class and field code. -/
def key (f : OxmField) : UInt16 × UInt8 := f.descriptor.key

/-- Whether the field has a mask. -/
def hasMask (f : OxmField) : Bool := f.mask.isSome

/-- The number of bytes of the value, and of the mask. -/
def width (f : OxmField) : Nat := f.descriptor.width.toNat

/-- The header of the field. -/
def header (f : OxmField) : OxmHeader := .ofDescriptor f.descriptor f.hasMask

/-- The number of bytes of the wire form. -/
def size (f : OxmField) : Nat := OxmHeader.size + f.width * OxmHeader.copiesOf f.hasMask

/-- Whether the field has the type of a descriptor. -/
def hasTypeOf (f : OxmField) (d : FieldDescriptor) : Bool := f.key == d.key

/-! ## Building -/

/-- A field that matches one value exactly. -/
def exact (d : FieldDescriptor) (value : OxmValue) : Except Error OxmField :=
  if hv : value.fits d.width.toNat then .ok ⟨d, value, none, hv, rfl⟩
  else .error (.valueLengthMismatch d.name d.width.toNat value.length)

/-- A field with a mask, which is kept whatever its bits. -/
def masked (d : FieldDescriptor) (value mask : OxmValue) : Except Error OxmField :=
  if d.maskable then
    if hv : value.fits d.width.toNat then
      if hm : mask.fits d.width.toNat then .ok ⟨d, value, some mask, hv, hm⟩
      else .error (.valueLengthMismatch d.name d.width.toNat mask.length)
    else .error (.valueLengthMismatch d.name d.width.toNat value.length)
  else .error (.unsupportedMask d.name)

/-- A field with a mask where one is given, and without one elsewhere. -/
def build (d : FieldDescriptor) (value : OxmValue) : Option OxmValue → Except Error OxmField
  | none => exact d value
  | some mask => masked d value mask

/-! ## The wire form -/

/-- Whether the length in a header agrees with the width a descriptor gives. -/
def lengthAgrees (h : OxmHeader) (d : FieldDescriptor) : Bool :=
  h.length == d.width || (h.hasMask && h.length.toNat == 2 * d.width.toNat)

/-- Read the value or the mask of a field of a given descriptor. -/
def readPayload (d : FieldDescriptor) : Reader { v : OxmValue // v.fits d.width.toNat } := do
  let raw ← Reader.exactly d.width.toNat
  return ⟨.ofBytes raw.val, by simpa [raw.property] using OxmValue.fits_ofBytes raw.val⟩

/-- Read what follows the header of a field of a given descriptor. -/
def readBody (d : FieldDescriptor) (hasMask : Bool) : Reader OxmField := do
  let value ← readPayload d
  if hasMask then
    let mask ← readPayload d
    return ⟨d, value.val, some mask.val, value.property, mask.property⟩
  else
    return ⟨d, value.val, none, value.property, rfl⟩

/-- Read one field of a catalog.  A field of an unknown type is an error that
leaves the cursor behind the header. -/
def read (catalog : FieldCatalog) : Reader OxmField := do
  let header := OxmHeader.ofWord (← Reader.u32)
  match catalog.lookup? header.oxmClass header.field with
  | none => Reader.fail (.unknownFieldType header.oxmClass header.field)
  | some d =>
    if !lengthAgrees header d then Reader.warn
    readBody d header.hasMask

/-- Append the mask of a field, if it has one. -/
def writeMask (f : OxmField) : Writer :=
  match f.mask with
  | none => Writer.skip
  | some mask => mask.write

/-- Write a field. -/
def write (f : OxmField) : Writer :=
  Writer.u32 f.header.word ++ f.value.write ++ f.writeMask

end OxmField
end OpenFlow
