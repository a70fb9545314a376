import OpenFlow.Oxm.Descriptor

/-!
# Catalogs of match fields

A catalog holds the descriptors of the field types that are known, at most one
for each type.  Registering a descriptor replaces the one of the same type.

* `FieldCatalog.lookup?_register`: what a catalog holds after registering.
-/

namespace OpenFlow

/-- The descriptors of the known field types. -/
structure FieldCatalog where
  /-- The descriptors, the latest registered first. -/
  descriptors : List FieldDescriptor
  deriving DecidableEq

namespace FieldCatalog

/-- The catalog that knows no field type. -/
def empty : FieldCatalog := ⟨[]⟩

/-- The catalog of the field types of the basic class. -/
def basic : FieldCatalog := ⟨FieldType.all.map FieldType.descriptor⟩

/-- Add a descriptor in the place of any other of its type. -/
def register (c : FieldCatalog) (d : FieldDescriptor) : FieldCatalog :=
  ⟨d :: c.descriptors.filter (·.key != d.key)⟩

/-- The descriptor of a field type, if the type is known. -/
def lookup? (c : FieldCatalog) (oxmClass : UInt16) (field : UInt8) : Option FieldDescriptor :=
  c.descriptors.find? (·.key == (oxmClass, field))

/-- The number of known field types. -/
def size (c : FieldCatalog) : Nat := c.descriptors.length

/-- The descriptor found for a type has that type. -/
theorem key_of_lookup? {c : FieldCatalog} {oxmClass : UInt16} {field : UInt8}
    {d : FieldDescriptor} (h : c.lookup? oxmClass field = some d) : d.key = (oxmClass, field) := by
  simpa using List.find?_some h

theorem lookup?_register (c : FieldCatalog) (d : FieldDescriptor) (oxmClass : UInt16)
    (field : UInt8) :
    (c.register d).lookup? oxmClass field =
      if d.key = (oxmClass, field) then some d else c.lookup? oxmClass field := by
  by_cases h : d.key = (oxmClass, field)
  · simp [register, lookup?, h]
  · have hfront : (d.key == (oxmClass, field)) = false := by simpa using h
    have hrest : ∀ a : FieldDescriptor,
        decide ((a.key != d.key) = true ∧ (a.key == (oxmClass, field)) = true) =
          (a.key == (oxmClass, field)) := by
      intro a
      by_cases ha : a.key = (oxmClass, field)
      · have hne : a.key ≠ d.key := fun hd => h (hd ▸ ha)
        simp [ha ▸ hne, ha]
      · simp [ha]
    simp only [register, lookup?, List.find?_cons, if_neg h, List.find?_filter, hfront, hrest]

end FieldCatalog
end OpenFlow
