import OpenFlow.Match.Wire
import OpenFlow.Proofs.Match.Setting
import OpenFlow.Proofs.Oxm.Field

/-!
# The length of a match

A match declares its length in 16 bits, and nothing keeps its fields from taking up
more.  Writing a match never gives up, whatever its length: all the fields are
written, behind a length that has wrapped around, and in front of padding for that
length.

Main statements:

* `Match.encode_write`: the wire form of every match.
* `Match.hasTrueLength_ofFields_iff`: the length is right exactly for the matches
  whose header and fields take less than `65536` bytes.
* `Match.not_hasTrueLength_wide`: a match of 128 fields for which it is wrong.
-/

namespace OpenFlow
namespace Match

theorem toNat_length (m : Match) : m.length.toNat = m.span % 65536 := by
  unfold length
  rw [UInt16.toNat_ofNat']

/-! ## The wire form -/

instance (m : Match) : Writer.Uniform m.write :=
  inferInstanceAs (Writer.Uniform (Writer.u16 oxmCode ++ Writer.u16 m.length
    ++ Writer.each OxmField.write m.fields ++ Writer.zeros (padding8 m.length.toNat)))

/-- The fields of a match are written in as many bytes as their sizes say. -/
theorem spans_fields (m : Match) :
    Writer.Spans (Writer.each OxmField.write m.fields) (total OxmField.size m.fields) :=
  Writer.Spans.each fun f _ => OxmField.spans_write f

/-- **Every match has a wire form**: the type, the declared length, all the fields,
and padding for the declared length. -/
theorem encode_write (m : Match) :
    ∃ fields, fields.length = total OxmField.size m.fields ∧
      m.write.encode = .ok (Bytes.ofUInt16 oxmCode ++ Bytes.ofUInt16 m.length ++ fields
        ++ Bytes.zeros (padding8 m.length.toNat)) := by
  obtain ⟨fields, hfields, hlen⟩ := spans_fields m
  refine ⟨fields, hlen, ?_⟩
  have hheader := Writer.encode_append_of_ok (Writer.encode_u16 oxmCode)
    (Writer.encode_u16 m.length)
  exact Writer.encode_append_of_ok (Writer.encode_append_of_ok hheader hfields)
    (Writer.encode_zeros _)

/-- The length that the header of a written match holds. -/
def writtenLength (bs : Bytes) : Nat := Bytes.value ((bs.drop 2).take 2)

/-- What is written: all fields, behind a length modulo `65536`. -/
theorem encode_eq_ok (m : Match) :
    ∃ bs, Message.encode m = .ok bs ∧ writtenLength bs = m.span % 65536 ∧
      bs.length = m.span + padding8 (m.span % 65536) := by
  obtain ⟨fields, hlen, hw⟩ := encode_write m
  refine ⟨_, hw, ?_, ?_⟩
  · have hdrop : (Bytes.ofUInt16 oxmCode ++ Bytes.ofUInt16 m.length ++ fields
        ++ Bytes.zeros (padding8 m.length.toNat)).drop 2 =
        Bytes.ofUInt16 m.length ++ (fields ++ Bytes.zeros (padding8 m.length.toNat)) := by
      rw [List.append_assoc, List.append_assoc, List.drop_left' (Bytes.length_ofUInt16 _)]
    unfold writtenLength
    rw [hdrop, List.take_left' (Bytes.length_ofUInt16 _), Bytes.value_ofUInt16, toNat_length]
  · simp only [List.length_append, Bytes.length_ofUInt16, Bytes.length_zeros, hlen, toNat_length,
      span, headerSize]

/-! ## When the length is right -/

/-- Either a match is refused for its length, or the length it is written with and the
one it declares are those of its header and its fields, and it takes that length,
padded, which is its size. -/
def HasTrueLength (m : Match) : Prop :=
  (∃ what n, Message.encode m = .error (.lengthOverflow what n)) ∨
    ∃ bs, Message.encode m = .ok bs ∧ writtenLength bs = m.span ∧ m.length.toNat = m.span ∧
      bs.length = align8 m.span ∧ bs.length = Message.size m

/-- **The exact condition for a right length**, beside what is written in any case:
no match is refused, and the length of its header and fields is cut to 16 bits. -/
theorem hasTrueLength_ofFields_iff (fields : List OxmField) :
    (∃ bs, Message.encode (ofFields fields) = .ok bs ∧
      writtenLength bs = (ofFields fields).span % 65536 ∧
      (ofFields fields).length.toNat = (ofFields fields).span % 65536 ∧
      bs.length = (ofFields fields).span + padding8 ((ofFields fields).span % 65536) ∧
      Message.size (ofFields fields) = align8 ((ofFields fields).span % 65536)) ∧
    (HasTrueLength (ofFields fields) ↔ (ofFields fields).span < 65536) := by
  generalize ofFields fields = m
  have hlength := toNat_length m
  have hsize : Message.size m = align8 (m.span % 65536) := congrArg align8 hlength
  obtain ⟨bs, hbs, hwritten, hlen⟩ := encode_eq_ok m
  refine ⟨⟨bs, hbs, hwritten, hlength, hlen, hsize⟩, ?_⟩
  constructor
  · rintro (⟨what, n, herror⟩ | ⟨_, -, -, htrue, -⟩)
    · rw [hbs] at herror
      exact nomatch herror
    · rw [hlength] at htrue
      exact htrue ▸ Nat.mod_lt _ (by decide)
  · intro hlt
    rw [Nat.mod_eq_of_lt hlt] at hwritten hlength hlen hsize
    rw [add_padding8] at hlen
    exact Or.inr ⟨bs, hbs, hwritten, hlength, hlen, hlen.trans hsize.symm⟩

/-! ## A match that is too long -/

/-- The span of a match of different types whose fields have one size. -/
theorem span_ofFields {fields : List OxmField} (h : (fields.map OxmField.key).Nodup) {n : Nat}
    (hsize : ∀ f ∈ fields, f.size = n) :
    (ofFields fields).span = headerSize + n * fields.length := by
  unfold span
  rw [fields_ofFields h, total_eq_mul_length hsize]

/-- A masked field of the widest payload, of the `i`-th type of class `1`. -/
def wideField (i : Nat) : OxmField where
  descriptor := .ofCodes "FILL" 1 (UInt8.ofNat i) 255 true
  value := .bytes (Bytes.zeros 255)
  mask := some (.bytes (Bytes.zeros 255))
  value_fits := by simp [FieldDescriptor.ofCodes, OxmValue.fits, OxmValue.isWordWidth]
  mask_fits := by simp [FieldDescriptor.ofCodes, OxmValue.fits, OxmValue.isWordWidth]

/-- One such field of each type of the class. -/
def wideFields : List OxmField := (List.range 128).map wideField

theorem toNat_wideField {i : Nat} (hi : i < 128) :
    (wideField i).descriptor.field.toNat = i := by
  change (UInt8.ofNat i &&& 0x7f).toNat = i
  have hbyte : (UInt8.ofNat i).toNat = i := UInt8.toNat_ofNat_of_lt' (Nat.lt_trans hi (by decide))
  rw [toNat_and_seven_bits, hbyte, Nat.mod_eq_of_lt hi]

theorem nodup_wideFields : (wideFields.map OxmField.key).Nodup := by
  unfold wideFields
  rw [List.map_map, List.Nodup, List.pairwise_map]
  refine List.Pairwise.imp_of_mem ?_ List.nodup_range
  intro i j hi hj hij hkey
  have hfield := congrArg (fun k => k.2.toNat) hkey
  change (wideField i).descriptor.field.toNat = (wideField j).descriptor.field.toNat at hfield
  rw [toNat_wideField (List.mem_range.mp hi), toNat_wideField (List.mem_range.mp hj)] at hfield
  exact hij hfield

theorem span_wide : (ofFields wideFields).span = 65796 := by
  have hsize : ∀ f ∈ wideFields, OxmField.size f = 4 + 255 * 2 := by
    intro f hf
    obtain ⟨i, -, rfl⟩ := List.mem_map.mp hf
    rfl
  have hlength : wideFields.length = 128 := by
    unfold wideFields
    rw [List.length_map, List.length_range]
  rw [span_ofFields nodup_wideFields hsize, hlength]
  rfl

/-- The fields of all types of a class, at their widest, wrap the length around. -/
theorem not_hasTrueLength_wide :
    (ofFields wideFields).span = 65796 ∧ (ofFields wideFields).length = 260 ∧
      ¬ HasTrueLength (ofFields wideFields) := by
  have hlength := toNat_length (ofFields wideFields)
  rw [span_wide] at hlength
  refine ⟨span_wide, UInt16.toNat_inj.mp hlength, ?_⟩
  rintro (⟨what, n, herror⟩ | ⟨_, -, -, htrue, -⟩)
  · obtain ⟨bs, hbs, -⟩ := encode_eq_ok (ofFields wideFields)
    rw [hbs] at herror
    exact nomatch herror
  · rw [hlength, span_wide] at htrue
    exact absurd htrue (by decide)

end Match
end OpenFlow
