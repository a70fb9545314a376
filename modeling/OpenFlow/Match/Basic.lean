import OpenFlow.Oxm.Field

/-!
# Matches

A match is a sequence of fields with at most one field of each type.  Setting a
field replaces the one of its type, in its place, or goes to the end.

Main definitions:

* `Match.all`, `Match.set`, `Match.get?`: the empty match, an update, a look-up.
* `Match.ofFields`: fields set one after the other.
* `Match.length`: the length a match declares, which its 16-bit field keeps
  modulo `65536`.

Main statements:

* `Match.keys_set`: the types in a match after setting a field.
* `Match.get?_set`: what is found after setting a field.
-/

namespace OpenFlow

/-- Fields, at most one of each type. -/
structure Match where
  fields : List OxmField
  nodup : (fields.map OxmField.key).Nodup
  deriving DecidableEq

namespace Match

/-- The match without fields, which every packet meets. -/
def all : Match := ⟨[], by simp⟩

instance : Inhabited Match := ⟨all⟩

/-- The fields after setting one: it stands in for the field of its type, or at
the end. -/
def update (f : OxmField) : List OxmField → List OxmField
  | [] => [f]
  | g :: rest => if g.key = f.key then f :: rest else g :: update f rest

theorem mem_keys_update {f : OxmField} {fields : List OxmField} {k : UInt16 × UInt8} :
    k ∈ (update f fields).map OxmField.key ↔ k = f.key ∨ k ∈ fields.map OxmField.key := by
  induction fields with
  | nil => simp [update]
  | cons g rest ih =>
    by_cases h : g.key = f.key
    · simp [update, h]
    · simp only [update, if_neg h, List.map_cons, List.mem_cons, ih]
      constructor
      · rintro (h | h | h)
        · exact Or.inr (Or.inl h)
        · exact Or.inl h
        · exact Or.inr (Or.inr h)
      · rintro (h | h | h)
        · exact Or.inr (Or.inl h)
        · exact Or.inl h
        · exact Or.inr (Or.inr h)

theorem nodup_update {f : OxmField} {fields : List OxmField}
    (h : (fields.map OxmField.key).Nodup) : ((update f fields).map OxmField.key).Nodup := by
  induction fields with
  | nil => simp [update]
  | cons g rest ih =>
    rw [List.map_cons, List.nodup_cons] at h
    by_cases hk : g.key = f.key
    · simp only [update, if_pos hk, List.map_cons, List.nodup_cons]
      exact hk ▸ h
    · simp only [update, if_neg hk, List.map_cons, List.nodup_cons]
      refine ⟨fun hmem => ?_, ih h.2⟩
      rcases mem_keys_update.mp hmem with h' | h'
      · exact hk h'
      · exact h.1 h'

/-- Set a field. -/
def set (m : Match) (f : OxmField) : Match :=
  ⟨update f m.fields, nodup_update m.nodup⟩

/-- Set a field to one value, without a mask. -/
def setExact (m : Match) (t : FieldType) (value : OxmValue) : Except Error Match :=
  (OxmField.exact t.descriptor value).map m.set

/-- Set a field with a mask. -/
def setMasked (m : Match) (t : FieldType) (value mask : OxmValue) : Except Error Match :=
  (OxmField.masked t.descriptor value mask).map m.set

/-- The match that setting fields one after the other makes of another. -/
def setAll (m : Match) (fields : List OxmField) : Match := fields.foldl set m

/-- The match that setting fields one after the other makes. -/
def ofFields (fields : List OxmField) : Match := all.setAll fields

/-- The field of a given type. -/
def get? (m : Match) (d : FieldDescriptor) : Option OxmField :=
  m.fields.find? (·.hasTypeOf d)

/-- The value of the field of a given type. -/
def value? (m : Match) (d : FieldDescriptor) : Option OxmValue := (m.get? d).map OxmField.value

/-- Whether a match has no fields. -/
def isEmpty (m : Match) : Bool := m.fields.isEmpty

/-! ## Lengths -/

/-- The size of the header of a match. -/
def headerSize : Nat := 4

/-- The header and the fields, without padding. -/
def span (m : Match) : Nat := headerSize + total OxmField.size m.fields

/-- The length a match declares, in a 16-bit field. -/
def length (m : Match) : UInt16 := UInt16.ofNat m.span

/-- The number of bytes a match takes: its declared length, padded. -/
def size (m : Match) : Nat := align8 m.length.toNat

/-! ## Setting and finding -/

/-- The types in a match after setting a field: those that were there, and the
new one at the end unless it was there. -/
theorem keys_set (m : Match) (f : OxmField) :
    (m.set f).fields.map OxmField.key =
      if f.key ∈ m.fields.map OxmField.key then m.fields.map OxmField.key
      else m.fields.map OxmField.key ++ [f.key] := by
  obtain ⟨fields, hn⟩ := m
  simp only [set]
  clear hn
  induction fields with
  | nil => simp [update]
  | cons g rest ih =>
    by_cases hk : g.key = f.key
    · simp [update, hk]
    · have hne : f.key ≠ g.key := fun h => hk h.symm
      rw [update, if_neg hk, List.map_cons, ih]
      by_cases hmem : f.key ∈ rest.map OxmField.key
      · rw [if_pos hmem, List.map_cons, if_pos (List.mem_cons_of_mem _ hmem)]
      · rw [if_neg hmem, List.map_cons, if_neg (by simpa [hne] using hmem)]
        rfl

/-- Setting a field makes it the field of its type and leaves the others. -/
theorem get?_set (m : Match) (f : OxmField) (d : FieldDescriptor) :
    (m.set f).get? d = if f.key = d.key then some f else m.get? d := by
  obtain ⟨fields, hn⟩ := m
  simp only [set, get?]
  clear hn
  induction fields with
  | nil => by_cases h : f.key = d.key <;> simp [update, OxmField.hasTypeOf, h]
  | cons g rest ih =>
    by_cases hk : g.key = f.key
    · by_cases h : f.key = d.key <;> simp [update, OxmField.hasTypeOf, hk, h]
    · rw [update, if_neg hk, List.find?_cons, List.find?_cons, ih]
      by_cases hg : g.key = d.key
      · have : f.key ≠ d.key := fun h => hk (hg.trans h.symm)
        simp [OxmField.hasTypeOf, hg, this]
      · have hb : (g.key == d.key) = false := by simpa using hg
        simp [OxmField.hasTypeOf, hb]

end Match
end OpenFlow
