import OpenFlow.Proofs.Match.Projection

/-!
# Masked fields that declare a doubled length

The length in the header of a masked field is that of the value, and so of the mask.  Some
declare the length of both together, which is twice as much.  A reader that knows the type of
the field has its width from the catalog, and takes either for the same field.  A reader that
does not know it goes by the header alone, which says that a value and a mask of the declared
length follow: behind a doubled length it passes over as many bytes too many as value and
mask have.  What it finds is what the rest of the region holds from there on.

Main definitions:

* `OxmField.doubling`: the wire form of a field whose length is doubled if it is one of some.
* `Match.Misleads`: a field that is not delimited as it was meant.

Main statements:

* `Match.FieldsIn.misled`: how far a doubled length leads.
* `Match.decode_doubling`: decoding a match in which any lengths are doubled.
* `OxmHeader.not_exists_extent`: no rule that goes by the header alone delimits both forms.
-/

namespace OpenFlow

/-- The wire form of a field, whose header declares twice the length of the payload if the field
has a mask and is one of those that are doubled. -/
def OxmField.doubling (doubled : OxmField → Bool) (f : OxmField) : Bytes :=
  if f.hasMask && doubled f then f.declaring (2 * f.descriptor.width) else f.toBytes

@[simp] theorem OxmField.length_doubling (doubled : OxmField → Bool) (f : OxmField) :
    (f.doubling doubled).length = f.size := by
  unfold doubling
  split
  · exact f.length_declaring _
  · exact f.length_toBytes

/-- The double of a width fits one byte if the width is small. -/
theorem OxmField.toNat_two_mul_width {f : OxmField} (h : f.width ≤ 127) :
    (2 * f.descriptor.width).toNat = 2 * f.width := by
  have hwidth : f.descriptor.width.toNat = f.width := rfl
  rw [UInt8.toNat_mul, hwidth]
  change 2 * f.width % 256 = 2 * f.width
  omega

/-- A catalog is a part of what it is with another type. -/
theorem FieldCatalog.partOf_register {c : FieldCatalog} {d : FieldDescriptor}
    (h : c.lookup? d.oxmClass d.field = none) : c.PartOf (c.register d) := by
  intro oxmClass field d' hlookup
  have hother : d.key ≠ (oxmClass, field) := by
    intro hkey
    have hpair := Prod.mk.inj hkey
    rw [hpair.1, hpair.2, hlookup] at h
    cases h
  rw [lookup?_register, if_neg hother, hlookup]

namespace Match

variable {ctx : Context} {doubled : OxmField → Bool} {f : OxmField} {rest : Bytes}
  {found : List OxmField}

/-- A field with a mask and a payload whose length is doubled, and whose type is not known. -/
structure Misleads (ctx : Context) (doubled : OxmField → Bool) (f : OxmField) : Prop where
  hasMask : f.hasMask = true
  doubled : doubled f = true
  unknown : ctx.registries.fields.knows f.key = false
  width_pos : 0 < f.width

instance (ctx : Context) (doubled : OxmField → Bool) (f : OxmField) :
    Decidable (Misleads ctx doubled f) :=
  decidable_of_iff (f.hasMask = true ∧ doubled f = true ∧
      ctx.registries.fields.knows f.key = false ∧ 0 < f.width)
    ⟨fun h => ⟨h.1, h.2.1, h.2.2.1, h.2.2.2⟩, fun h => ⟨h.1, h.2, h.3, h.4⟩⟩

/-! ## One field -/

/-- A field that does not mislead is delimited as it was meant. -/
theorem delimits_doubling (hcode : f.descriptor.field < 128)
    (hpolicy : ctx.unknownFields ≠ .reject)
    (hknown : ctx.registries.fields.knows f.key → ctx.registries.fields.Holds f.descriptor)
    (h : ¬ Misleads ctx doubled f) : Delimits ctx f (f.doubling doubled) := by
  unfold OxmField.doubling
  cases hdouble : f.hasMask && doubled f with
  | false => exact delimits_toBytes hcode hknown fun _ => hpolicy
  | true =>
    rw [if_pos rfl]
    obtain ⟨hmask, hdoubled⟩ := (Bool.and_eq_true _ _).mp hdouble
    cases hknows : ctx.registries.fields.knows f.key with
    | true => exact .known ⟨hknown hknows, hcode⟩ _
    | false =>
      -- A length of zero is its own double.
      have hzero : f.width = 0 := Nat.eq_zero_of_not_pos fun hpos =>
        h ⟨hmask, hdoubled, hknows, hpos⟩
      have hwidth : f.descriptor.width = 0 := UInt8.toNat_inj.mp hzero
      have hsame : f.declaring (2 * f.descriptor.width) = f.toBytes := by
        rw [← f.declaring_width, hwidth]
        rfl
      rw [hsame]
      exact .unknown hcode hpolicy hknows

/-- **A field that misleads** takes twice the width of its payload from the bytes behind it. -/
theorem FieldsIn.misled (hcode : f.descriptor.field < 128)
    (hpolicy : ctx.unknownFields ≠ .reject) (h : Misleads ctx doubled f)
    (hwidth : f.width ≤ 127) (hrest : FieldsIn ctx (rest.drop (2 * f.width)) found) :
    FieldsIn ctx (f.doubling doubled ++ rest) found := by
  have hdouble : f.doubling doubled = f.declaring (2 * f.descriptor.width) := by
    rw [OxmField.doubling, h.hasMask, h.doubled]
    rfl
  obtain ⟨header, hheader⟩ : ∃ header, f.header.withLength (2 * f.descriptor.width) = header :=
    ⟨_, rfl⟩
  have hpeek : OxmHeader.peek? (Bytes.ofUInt32 header.word) = some header :=
    hheader ▸ OxmField.peek?_word_header hcode (2 * f.descriptor.width)
  have hlookup : ctx.registries.fields.lookup? header.oxmClass header.field = none :=
    hheader ▸ FieldCatalog.lookup?_eq_none h.unknown
  have hpayload : f.payload.length = f.width * 2 := by
    rw [f.length_payload, h.hasMask]
    rfl
  have hextent : header.wireLength = 4 + 2 * f.width * 2 := by
    rw [← hheader]
    change 4 + (2 * f.descriptor.width).toNat * OxmHeader.copiesOf f.hasMask = _
    rw [OxmField.toNat_two_mul_width hwidth, h.hasMask]
    rfl
  rw [hdouble, OxmField.declaring_eq, hheader]
  by_cases hfits : 2 * f.width ≤ rest.length
  · -- The value and the mask that the header calls for end behind the bytes of this field.
    have hlength : (Bytes.ofUInt32 header.word ++ (f.payload ++ rest.take (2 * f.width))).length =
        header.wireLength := by
      rw [List.length_append, List.length_append, Bytes.length_ofUInt32, hpayload,
        List.length_take, Nat.min_eq_left hfits, hextent]
      omega
    have hunknown := FieldsIn.unknown hpolicy hpeek hlookup hlength hrest
    rw [List.append_assoc f.payload, List.take_append_drop] at hunknown
    rwa [List.append_assoc]
  · -- There are not so many bytes, and nothing is found, which is what no bytes hold.
    rw [List.drop_eq_nil_of_le (by omega)] at hrest
    obtain rfl := hrest.unique (fieldsIn_nil ctx)
    rw [List.append_assoc]
    refine .overrun (OxmHeader.peek?_append_of_some hpeek _) (fun hreject => absurd hreject hpolicy)
      ?_
    rw [FieldCatalog.extent_of_unknown hlookup, hextent, List.length_append, List.length_append,
      Bytes.length_ofUInt32, hpayload]
    omega

/-! ## The match -/

/-- **Decoding a match in which lengths are doubled.**  In the wire form of a match that is built
over a catalog, of fields whose codes have seven bits, whose length is not too much for 16 bits and
whose masked fields have at most 127 bytes, the lengths in the headers of any masked fields are
doubled, and nothing else is changed.  Where unknown types are passed over, decoding this with a
part of the catalog succeeds and takes as many bytes as ever.

If all fields whose lengths are doubled have known types, or no payload, it gives the same as for
the form that was written.  Otherwise the first of the others misleads: there are found the known
fields in front of it, and what the region holds behind as many bytes too many as its value and
its mask have. -/
theorem decode_doubling (ctx : Context) (hpolicy : ctx.unknownFields = .skip)
    {catalog : FieldCatalog} (hpart : ctx.registries.fields.PartOf catalog)
    {fields : List OxmField} (hmakes : ∀ f ∈ fields, catalog.Makes f)
    (hcode : ∀ f ∈ fields, f.descriptor.field < 128)
    (hlt : headerSize + total OxmField.size (ofFields fields).fields ≤ 65535)
    (hwidth : ∀ f ∈ (ofFields fields).fields, f.hasMask → f.width ≤ 127)
    (doubled : OxmField → Bool) (s : Bytes) :
    let m := ofFields fields
    let bytes := m.wireBytes (OxmField.doubling doubled)
    let decoded : Except Error (Match × Nat) := Message.decode ctx (bytes ++ s)
    Message.encode m = .ok (m.wireBytes OxmField.toBytes) ∧
      (∃ m', decoded = .ok (m', Message.size m)) ∧
      ((∀ f ∈ m.fields, ¬ Misleads ctx doubled f) →
        decoded = Message.decode ctx (m.wireBytes OxmField.toBytes ++ s)) ∧
      ∀ before f after found, m.fields = before ++ f :: after →
        (∀ g ∈ before, ¬ Misleads ctx doubled g) → Misleads ctx doubled f →
        FieldsIn ctx ((after.flatMap (OxmField.doubling doubled)).drop (2 * f.width)) found →
          decoded = .ok (ofFields (before.filter (ctx.registries.fields.knows ·.key) ++ found),
            Message.size m) := by
  intro m bytes decoded
  have hspan : m.span < 65536 := Nat.lt_succ_of_le hlt
  have hskip : ctx.unknownFields ≠ .reject := by
    rw [hpolicy]
    exact nofun
  have hcodes : ∀ f ∈ m.fields, f.descriptor.field < 128 := fun f hf =>
    hcode f (mem_of_mem_fields_ofFields hf)
  have hholds : ∀ f ∈ m.fields, ctx.registries.fields.knows f.key →
      ctx.registries.fields.Holds f.descriptor := fun f hf =>
    hpart.holds_of_knows (hmakes f (mem_of_mem_fields_ofFields hf)).holds
  have hdecode {found : List OxmField}
      (h : FieldsIn ctx (m.fields.flatMap (OxmField.doubling doubled)) found) :
      decoded = .ok (ofFields found, Message.size m) :=
    decode_wireBytes (OxmField.length_doubling doubled) hspan h s
  refine ⟨encode_eq_wireBytes m, ?_, fun hnone => ?_, ?_⟩
  · obtain ⟨found, hfound⟩ := exists_fieldsIn hskip (m.fields.flatMap (OxmField.doubling doubled))
    exact ⟨ofFields found, hdecode hfound⟩
  · have hfound := (fieldsIn_nil ctx).flatMap fun f hf =>
      delimits_doubling (hcodes f hf) hskip (hholds f hf) (hnone f hf)
    have hplain := (fieldsIn_nil ctx).flatMap fun f hf =>
      delimits_toBytes (hcodes f hf) (hholds f hf) fun _ => hskip
    rw [List.append_nil, List.append_nil] at hfound hplain
    rw [hdecode hfound, decode_wireBytes OxmField.length_toBytes hspan hplain s]
  · intro before f after found hsplit hbefore hmisleads hfound
    have hmem : f ∈ m.fields := by
      rw [hsplit]
      exact List.mem_append_right before (List.mem_cons_self ..)
    have hmisled := hfound.misled (hcodes f hmem) hskip hmisleads
      (hwidth f hmem hmisleads.hasMask)
    have hfront (g : OxmField) (hg : g ∈ before) : g ∈ m.fields := by
      rw [hsplit]
      exact List.mem_append_left _ hg
    have hall := hmisled.flatMap fun g hg =>
      delimits_doubling (hcodes g (hfront g hg)) hskip (hholds g (hfront g hg)) (hbefore g hg)
    refine hdecode ?_
    rw [hsplit, List.flatMap_append, List.flatMap_cons]
    exact hall

/-- A type of field of two bytes, with a mask, that is not a basic one. -/
def tag : FieldDescriptor := .ofCodes "TAG" 0xffff 7 2 true

/-- An address with a mask, a tag with a mask, and a protocol. -/
def tagged : List OxmField :=
  [⟨FieldType.ipv4Dst.descriptor, .u32 0x0a000001, some (.u32 0xffffff00), rfl, rfl⟩,
   ⟨tag, .u16 0xaabb, some (.u16 0xccdd), rfl, rfl⟩,
   ⟨FieldType.ipProto.descriptor, .u8 6, none, rfl, rfl⟩]

/-- The wire form of the address, the tag and the protocol, where the address and the tag declare
given lengths. -/
def taggedBytes (address tag : UInt8) : Bytes :=
  [0, 1, 0, 29, 0x80, 0, 25, address, 10, 0, 0, 1, 255, 255, 255, 0,
   255, 255, 15, tag, 0xaa, 0xbb, 0xcc, 0xdd, 0x80, 0, 20, 1, 6, 0, 0, 0]

theorem makes_tagged : ∀ f ∈ tagged, (FieldCatalog.basic.register tag).Makes f :=
  List.forall_mem_cons.mpr
    ⟨⟨FieldType.ipv4Dst.descriptor, .u32 0x0a000001, some (.u32 0xffffff00), rfl, rfl⟩,
      List.forall_mem_cons.mpr ⟨⟨tag, .u16 0xaabb, some (.u16 0xccdd), rfl, rfl⟩,
        List.forall_mem_singleton.mpr ⟨FieldType.ipProto.descriptor, .u8 6, none, rfl, rfl⟩⟩⟩

/-- With the basic catalog the length of the address may be doubled; where that of the tag is, the
protocol behind it is lost. -/
theorem decode_doubling_tagged :
    (Message.decode {} (taggedBytes 8 2) : Except Error (Match × Nat)) =
        Message.decode {} (taggedBytes 4 2) ∧
      Message.decode {} (taggedBytes 8 4) = .ok (ofFields (tagged.take 1), 32) := by
  have hpart : FieldCatalog.basic.PartOf (FieldCatalog.basic.register tag) :=
    FieldCatalog.partOf_register rfl
  have hwidth : ∀ f ∈ (ofFields tagged).fields, f.hasMask → f.width ≤ 127 := by decide
  obtain ⟨-, -, hsame, -⟩ := decode_doubling {} rfl hpart makes_tagged (by decide) (by decide)
    hwidth (·.descriptor.oxmClass == basicClass) []
  obtain ⟨-, -, -, hfirst⟩ := decode_doubling {} rfl hpart makes_tagged (by decide) (by decide)
    hwidth (fun _ => true) []
  have hrest : FieldsIn {} [6] [] := .ending (by decide)
  exact ⟨hsame (by decide), hfirst (tagged.take 1) _ (tagged.drop 2) [] rfl (by decide) (by decide)
    hrest⟩

/-- A type of field of two bytes, with a mask, whose code has eight bits. -/
def wideTag : FieldDescriptor := ⟨"WIDE_TAG", 0xffff, 200, 2, true⟩

/-- A context that knows this type beside the basic ones. -/
def wideTagging : Context where
  registries := { Registries.standard with fields := FieldCatalog.basic.register wideTag }

/-- A field of this type with a mask, and a protocol. -/
def wideTagged : List OxmField :=
  [⟨wideTag, .u16 0xaabb, some (.u16 0xccdd), rfl, rfl⟩,
   ⟨FieldType.ipProto.descriptor, .u8 6, none, rfl, rfl⟩]

/-- The wire form of this field and the protocol, where the field declares a given length. -/
def wideTaggedBytes (length : UInt8) : Bytes :=
  [0, 1, 0, 17, 255, 255, 0x91, length, 0xaa, 0xbb, 0xcc, 0xdd, 0x80, 0, 20, 1, 6,
   0, 0, 0, 0, 0, 0, 0]

theorem makes_wideTagged : ∀ f ∈ wideTagged, (FieldCatalog.basic.register wideTag).Makes f :=
  List.forall_mem_cons.mpr ⟨⟨wideTag, .u16 0xaabb, some (.u16 0xccdd), rfl, rfl⟩,
    List.forall_mem_singleton.mpr ⟨FieldType.ipProto.descriptor, .u8 6, none, rfl, rfl⟩⟩

/-- **A doubled length is not always read as the plain one.**  The tag is of a type that the basic
catalog does not know; with a doubled length it takes the protocol with it.  So does a field whose
code has eight bits, even where its type is known. -/
theorem not_interchangeable_tagged :
    (FieldCatalog.basic.PartOf (FieldCatalog.basic.register tag) ∧
      (∀ f ∈ tagged, (FieldCatalog.basic.register tag).Makes f) ∧
      headerSize + total OxmField.size (ofFields tagged).fields ≤ 65535 ∧
      (∀ f ∈ (ofFields tagged).fields, f.hasMask → f.width ≤ 127) ∧
      Message.encode (ofFields tagged) = .ok (taggedBytes 4 2) ∧
      taggedBytes 8 4 = (ofFields tagged).wireBytes (OxmField.doubling fun _ => true) ∧
      (Message.decode {} (taggedBytes 8 4) : Except Error (Match × Nat)) ≠
        Message.decode {} (taggedBytes 4 2)) ∧
    (∀ f ∈ wideTagged, wideTagging.registries.fields.Makes f) ∧
      headerSize + total OxmField.size (ofFields wideTagged).fields ≤ 65535 ∧
      (∀ f ∈ (ofFields wideTagged).fields, f.hasMask → f.width ≤ 127) ∧
      Message.encode (ofFields wideTagged) = .ok (wideTaggedBytes 2) ∧
      wideTaggedBytes 4 = (ofFields wideTagged).wireBytes (OxmField.doubling fun _ => true) ∧
      (Message.decode wideTagging (wideTaggedBytes 4) : Except Error (Match × Nat)) ≠
        Message.decode wideTagging (wideTaggedBytes 2) := by
  have hplain : (Message.decode {} (taggedBytes 4 2) : Except Error (Match × Nat)) =
      .ok (ofFields (tagged.eraseIdx 1), 32) := by with_unfolding_all rfl
  have hdoubled : (Message.decode {} (taggedBytes 8 4) : Except Error (Match × Nat)) =
      .ok (ofFields (tagged.take 1), 32) := by with_unfolding_all rfl
  have hwide : (Message.decode wideTagging (wideTaggedBytes 2) : Except Error (Match × Nat)) =
      .ok (ofFields (wideTagged.drop 1), 24) := by with_unfolding_all rfl
  have hwideDoubled : (Message.decode wideTagging (wideTaggedBytes 4) :
      Except Error (Match × Nat)) = .ok (all, 24) := by with_unfolding_all rfl
  refine ⟨⟨FieldCatalog.partOf_register rfl, makes_tagged, by decide, by decide, rfl, rfl, ?_⟩,
    makes_wideTagged, by decide, by decide, rfl, rfl, ?_⟩
  · rw [hplain, hdoubled]
    decide
  · rw [hwide, hwideDoubled]
    decide

end Match

/-! ## Going by the header alone -/

/-- **No rule that goes by the header alone delimits both forms**: the masked field of a type that
declares one length may be a field of that width, or one of half the width that is doubled. -/
theorem OxmHeader.not_exists_extent {oxmClass : UInt16} {field : UInt8} :
    ¬ ∃ extent : OxmHeader → Nat, ∀ f : OxmField, f.key = (oxmClass, field) → f.hasMask →
      f.width ≤ 127 → extent f.header = f.size ∧
        extent (f.header.withLength (2 * f.descriptor.width)) = f.size := by
  rintro ⟨extent, hextent⟩
  let wide : OxmField := ⟨⟨"", oxmClass, field, 2, true⟩, .u16 0, some (.u16 0), rfl, rfl⟩
  let narrow : OxmField := ⟨⟨"", oxmClass, field, 1, true⟩, .u8 0, some (.u8 0), rfl, rfl⟩
  have hwide : extent wide.header = 8 := (hextent wide rfl rfl (Nat.le_of_ble_eq_true rfl)).1
  have hnarrow : extent (narrow.header.withLength 2) = 6 :=
    (hextent narrow rfl rfl (Nat.le_of_ble_eq_true rfl)).2
  have hsame : narrow.header.withLength 2 = wide.header := rfl
  rw [hsame, hwide] at hnarrow
  exact absurd hnarrow (by decide)

end OpenFlow
