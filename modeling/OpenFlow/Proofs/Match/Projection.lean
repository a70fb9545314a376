import OpenFlow.Proofs.Element.Recovery
import OpenFlow.Proofs.Match.Walk

/-!
# Matches read with a smaller catalog

A match that was written over one catalog may be read over another one that knows fewer
types.  Fields of the other types are then passed over or refused.  What their headers say is
what their descriptors called for when they were written, so the two rules by which fields
are delimited agree on what was written, and what is left is the projection of the match to
the types that are known.

For a field code that a header does not keep whole this is not so: what is written has
another type.

Main definitions:

* `Match.restrict`: the fields of a match whose types a catalog knows.
* `Match.wireBytes`: the wire form of a match, from the wire forms of its fields.

Main statements:

* `Match.decode_wireBytes`: decoding finds what the bytes of the fields hold.
* `Match.decode_encode_restrict`: decoding over a part of the catalog is projection.
-/

namespace OpenFlow

/-- Of a type that a part of a catalog knows, it has the descriptor of the catalog. -/
theorem FieldCatalog.PartOf.holds_of_knows {c catalog : FieldCatalog} (h : c.PartOf catalog)
    {d : FieldDescriptor} (hd : catalog.Holds d) (hknows : c.knows d.key) : c.Holds d := by
  obtain ⟨d', hlookup⟩ := Option.isSome_iff_exists.mp hknows
  exact h.holds hd hlookup

theorem FieldCatalog.Holds.knows {c : FieldCatalog} {d : FieldDescriptor} (h : c.Holds d) :
    c.knows d.key = true :=
  Option.isSome_iff_exists.mpr ⟨d, h⟩

theorem FieldCatalog.lookup?_eq_none {c : FieldCatalog} {d : FieldDescriptor}
    (h : c.knows d.key = false) : c.lookup? d.oxmClass d.field = none :=
  Option.isNone_iff_eq_none.mp (by rw [← Option.not_isSome]; exact congrArg Bool.not h)

namespace Match

variable {ctx : Context} {f : OxmField} {rest : Bytes} {fields : List OxmField}

/-! ## The projection -/

/-- The fields of a match whose types a catalog knows, in the order of the match. -/
def restrict (m : Match) (catalog : FieldCatalog) : Match :=
  ⟨m.fields.filter (catalog.knows ·.key), m.nodup.sublist (List.filter_sublist.map _)⟩

theorem span_restrict_le (m : Match) (catalog : FieldCatalog) :
    (m.restrict catalog).span ≤ m.span := by
  have hsub : total OxmField.size (m.fields.filter (catalog.knows ·.key)) ≤
      total OxmField.size m.fields := by
    induction m.fields with
    | nil => exact Nat.le_refl _
    | cons f fields ih =>
      rw [List.filter_cons]
      split
      · exact Nat.add_le_add_left ih _
      · exact Nat.le_trans ih (Nat.le_add_left _ _)
  exact Nat.add_le_add_left hsub headerSize

/-! ## One field -/

/-- A field of a known type opens a region, whatever length its header declares. -/
theorem opens_declaring (h : ctx.registries.fields.Finds f.descriptor) (n : UInt8) :
    Opens ctx (Bytes.ofUInt32 (f.header.withLength n).word) (f.header.withLength n) f where
  peek_eq := OxmField.peek?_word_header h.field_lt n
  length_eq := Bytes.length_ofUInt32 _
  lookup_eq := h.holds
  hasMask_eq := rfl

/-- Bytes of a field that are delimited as it was meant: those of a field of a known type, whatever
length they declare, and those of another field, where it is passed over, as they are written. -/
inductive Delimits (ctx : Context) (f : OxmField) : Bytes → Prop
  | known (h : ctx.registries.fields.Finds f.descriptor) (n : UInt8) :
      Delimits ctx f (f.declaring n)
  | unknown (hcode : f.descriptor.field < 128) (hpolicy : ctx.unknownFields ≠ .reject)
      (h : ctx.registries.fields.knows f.key = false) : Delimits ctx f f.toBytes

/-- Where the type of a field is known, or else passed over, what is written delimits it. -/
theorem delimits_toBytes (hcode : f.descriptor.field < 128)
    (hknown : ctx.registries.fields.knows f.key → ctx.registries.fields.Holds f.descriptor)
    (hunknown : ctx.registries.fields.knows f.key = false → ctx.unknownFields ≠ .reject) :
    Delimits ctx f f.toBytes := by
  cases hknows : ctx.registries.fields.knows f.key with
  | true => exact f.declaring_width ▸ .known ⟨hknown hknows, hcode⟩ f.descriptor.width
  | false => exact .unknown hcode (hunknown hknows) hknows

/-- In front of the fields of a region, a field is one more of them if its type is known. -/
theorem FieldsIn.delimited (hrest : FieldsIn ctx rest fields) {bytes : Bytes}
    (h : Delimits ctx f bytes) : FieldsIn ctx (bytes ++ rest)
      ([f].filter (ctx.registries.fields.knows ·.key) ++ fields) := by
  cases h with
  | known hfinds n =>
    have hknows : ctx.registries.fields.knows f.key = true := hfinds.holds.knows
    rw [OxmField.declaring_eq, List.append_assoc, List.filter_singleton, hknows]
    exact .known (opens_declaring hfinds n) hrest
  | unknown hcode hpolicy hknows =>
    have hlength : (Bytes.ofUInt32 f.header.word ++ f.payload).length = f.header.wireLength :=
      f.length_toBytes
    rw [OxmField.toBytes, List.append_assoc, List.filter_singleton, hknows]
    exact .unknown hpolicy (OxmField.peek?_word_header hcode f.descriptor.width)
      (FieldCatalog.lookup?_eq_none hknows) hlength hrest

/-- Where unknown types are refused, a field of one of them is. -/
theorem refusedIn_toBytes (hcode : f.descriptor.field < 128)
    (hpolicy : ctx.unknownFields = .reject) (h : ctx.registries.fields.knows f.key = false)
    (rest : Bytes) :
    RefusedIn ctx (f.toBytes ++ rest) f.descriptor.oxmClass f.descriptor.field := by
  have hpeek : OxmHeader.peek? (f.toBytes ++ rest) = some f.header := by
    rw [OxmField.toBytes, List.append_assoc]
    exact OxmHeader.peek?_append_of_some (OxmField.peek?_word_header hcode f.descriptor.width) _
  have hlookup : ctx.registries.fields.lookup? f.header.oxmClass f.header.field = none :=
    FieldCatalog.lookup?_eq_none h
  exact .here hpolicy hpeek hlookup

/-! ## Fields in a row -/

/-- **Fields that are delimited as they were meant** are found in front of the fields of a region,
as far as their types are known. -/
theorem FieldsIn.flatMap {bytes : OxmField → Bytes} {found : List OxmField}
    (hrest : FieldsIn ctx rest found) (h : ∀ f ∈ fields, Delimits ctx f (bytes f)) :
    FieldsIn ctx (fields.flatMap bytes ++ rest)
      (fields.filter (ctx.registries.fields.knows ·.key) ++ found) := by
  induction fields with
  | nil => exact hrest
  | cons f fields ih =>
    have hfirst := (ih fun g hg => h g (List.mem_cons_of_mem f hg)).delimited
      (h f (List.mem_cons_self ..))
    rw [← List.append_assoc, ← List.append_assoc, ← List.filter_append] at hfirst
    exact hfirst

/-- Where unknown types are refused, a region that was written is refused for the first field of
such a type. -/
theorem refusedIn_flatMap (hpolicy : ctx.unknownFields = .reject)
    (hcode : ∀ f ∈ fields, f.descriptor.field < 128)
    (h : ∀ f ∈ fields, ctx.registries.fields.knows f.key →
      ctx.registries.fields.Holds f.descriptor)
    (hfirst : fields.find? (fun g => !ctx.registries.fields.knows g.key) = some f) :
    RefusedIn ctx (fields.flatMap OxmField.toBytes) f.descriptor.oxmClass f.descriptor.field := by
  induction fields with
  | nil => cases hfirst
  | cons g fields ih =>
    have hfront := hcode g (List.mem_cons_self ..)
    rw [List.flatMap_cons]
    rw [List.find?_cons] at hfirst
    cases hknows : ctx.registries.fields.knows g.key with
    | true =>
      rw [hknows] at hfirst
      have hrest := ih (fun f hf => hcode f (List.mem_cons_of_mem g hf))
        (fun f hf => h f (List.mem_cons_of_mem g hf)) hfirst
      rw [← OxmField.declaring_width, OxmField.declaring_eq, List.append_assoc]
      exact .behind (opens_declaring ⟨h g (List.mem_cons_self ..) hknows, hfront⟩ _) hrest
    | false =>
      rw [hknows] at hfirst
      obtain rfl := Option.some.inj hfirst
      exact refusedIn_toBytes hfront hpolicy hknows _

/-! ## The match -/

/-- The wire form of a match with given wire forms of its fields. -/
def wireBytes (m : Match) (field : OxmField → Bytes) : Bytes :=
  Bytes.ofUInt16 oxmCode ++ (Bytes.ofUInt16 m.length ++
    (m.fields.flatMap field ++ Bytes.zeros (padding8 m.length.toNat)))

theorem encode_each (fields : List OxmField) :
    (Writer.each OxmField.write fields).encode = .ok (fields.flatMap OxmField.toBytes) := by
  induction fields with
  | nil => exact Writer.encode_skip
  | cons f fields ih =>
    exact Writer.encode_each_cons_eq_ok_iff.mpr ⟨f.toBytes, f.encode_write, _, ih, rfl⟩

/-- A match is written with its fields as they are written. -/
theorem encode_eq_wireBytes (m : Match) :
    Message.encode m = .ok (m.wireBytes OxmField.toBytes) := by
  change m.write.encode = _
  unfold write
  rw [Writer.append_assoc, Writer.append_assoc]
  exact Writer.encode_append_of_ok (Writer.encode_u16 oxmCode)
    (Writer.encode_append_of_ok (Writer.encode_u16 m.length)
      (Writer.encode_append_of_ok (encode_each m.fields) (Writer.encode_zeros _)))

/-- The header in front of the wire form is that of the match. -/
theorem peekHeader?_wireBytes (m : Match) (field : OxmField → Bytes) (s : Bytes) :
    Bytes.peekHeader? (m.wireBytes field ++ s) = some (oxmCode, m.length) := by
  rw [wireBytes, List.append_assoc, List.append_assoc]
  exact Bytes.peekHeader?_append _ _ _

theorem headerSize_le_length {m : Match} (hlt : m.span < 65536) :
    headerSize ≤ m.length.toNat := by
  rw [toNat_length, Nat.mod_eq_of_lt hlt]
  exact Nat.le_add_right ..

section wireBytes

variable {m : Match} {field : OxmField → Bytes} (hfield : ∀ f, (field f).length = f.size)

include hfield

theorem length_flatMap (fields : List OxmField) :
    (fields.flatMap field).length = total OxmField.size fields := by
  induction fields with
  | nil => rfl
  | cons f fields ih => rw [List.flatMap_cons, List.length_append, hfield, ih, total_cons]

/-- A wire form with fields of the right sizes takes the size of the match. -/
theorem length_wireBytes (hlt : m.span < 65536) : (m.wireBytes field).length = m.size := by
  have hlength : m.length.toNat = m.span := by rw [toNat_length, Nat.mod_eq_of_lt hlt]
  have hpad := add_padding8 m.span
  have hspan : m.span = 4 + total OxmField.size m.fields := rfl
  simp only [wireBytes, List.length_append, Bytes.length_ofUInt16, Bytes.length_zeros,
    length_flatMap hfield, size, hlength]
  omega

/-- The region of such a wire form is that of its fields. -/
theorem fieldRegion_wireBytes (hlt : m.span < 65536) (s : Bytes) :
    fieldRegion (m.wireBytes field ++ s) m.length = m.fields.flatMap field := by
  have hlength : m.length.toNat - headerSize = (m.fields.flatMap field).length := by
    rw [toNat_length, Nat.mod_eq_of_lt hlt, length_flatMap hfield]
    exact Nat.add_sub_cancel_left ..
  have hheader : (Bytes.ofUInt16 oxmCode ++ Bytes.ofUInt16 m.length).length = headerSize := by
    rw [List.length_append, Bytes.length_ofUInt16, Bytes.length_ofUInt16]
    rfl
  rw [fieldRegion, wireBytes, ← List.append_assoc, List.append_assoc, List.drop_left' hheader,
    hlength, List.append_assoc, List.take_left]

/-- **Decoding finds what the bytes of the fields hold**, and takes the size of the match. -/
theorem decode_wireBytes (hlt : m.span < 65536)
    (h : FieldsIn ctx (m.fields.flatMap field) fields) (s : Bytes) :
    Message.decode ctx (m.wireBytes field ++ s) = .ok (ofFields fields, Message.size m) := by
  have hregion := fieldRegion_wireBytes hfield hlt s
  obtain ⟨w, hrun⟩ := run_read_of_fieldsIn (c := Cursor.start (m.wireBytes field ++ s))
    (peekHeader?_wireBytes m field s) (headerSize_le_length hlt) (hregion ▸ h)
  have hend : min (0 + m.size) (m.wireBytes field ++ s).length = m.size := by
    rw [List.length_append, length_wireBytes hfield hlt]
    omega
  change _ = Except.ok (ofFields fields, m.size)
  rw [← hend]
  exact Message.decode_of_run hrun

/-- Decoding is refused for the type for which the bytes of the fields are. -/
theorem decode_wireBytes_of_refusedIn (hlt : m.span < 65536) {oxmClass : UInt16} {code : UInt8}
    (h : RefusedIn ctx (m.fields.flatMap field) oxmClass code) (s : Bytes) :
    (Message.decode ctx (m.wireBytes field ++ s) : Except Error (Match × Nat)) =
      .error (.unknownFieldType oxmClass code) := by
  have hregion := fieldRegion_wireBytes hfield hlt s
  exact Message.decode_of_result_eq_error
    (result_read_of_refusedIn (c := Cursor.start (m.wireBytes field ++ s))
      (peekHeader?_wireBytes m field s) (headerSize_le_length hlt) (hregion ▸ h))

end wireBytes

/-! ## Decoding with a smaller catalog -/

/-- **Decoding with a smaller catalog is projection.**  A match of fields that are built of entries
of a catalog, whose codes have seven bits, and set one after the other, whose length is not too
much for 16 bits, has a wire form.  Where unknown types are passed over, decoding it with a part of
the catalog, whatever follows it, gives the match of the fields whose types are known, in their
order and with the length that they take, and it takes the size of the match that was written.
Where unknown types are refused, it gives the same if there are none, and otherwise fails with the
type of the first field of an unknown type. -/
theorem decode_encode_restrict (ctx : Context) {catalog : FieldCatalog}
    (hpart : ctx.registries.fields.PartOf catalog) {fields : List OxmField}
    (hmakes : ∀ f ∈ fields, catalog.Makes f) (hcode : ∀ f ∈ fields, f.descriptor.field < 128)
    (hlt : headerSize + total OxmField.size (ofFields fields).fields ≤ 65535) :
    let m := ofFields fields
    let known := m.restrict ctx.registries.fields
    ∃ b, Message.encode m = .ok b ∧
      known.length.toNat = headerSize + total OxmField.size known.fields ∧
      ∀ s,
        (ctx.unknownFields = .skip →
          Message.decode ctx (b ++ s) = .ok (known, Message.size m)) ∧
        (ctx.unknownFields = .reject →
          ((∀ f ∈ m.fields, ctx.registries.fields.knows f.key) →
            Message.decode ctx (b ++ s) = .ok (known, Message.size m)) ∧
          ∀ f, m.fields.find? (fun g => !ctx.registries.fields.knows g.key) = some f →
            (Message.decode ctx (b ++ s) : Except Error (Match × Nat)) =
              .error (.unknownFieldType f.descriptor.oxmClass f.descriptor.field)) := by
  intro m known
  have hspan : m.span < 65536 := Nat.lt_succ_of_le hlt
  have hsizes : ∀ f : OxmField, f.toBytes.length = f.size := OxmField.length_toBytes
  have hcodes : ∀ f ∈ m.fields, f.descriptor.field < 128 := fun f hf =>
    hcode f (mem_of_mem_fields_ofFields hf)
  have hholds : ∀ f ∈ m.fields, ctx.registries.fields.knows f.key →
      ctx.registries.fields.Holds f.descriptor := fun f hf =>
    hpart.holds_of_knows (hmakes f (mem_of_mem_fields_ofFields hf)).holds
  -- Whether unknown types are passed over or there are none, all fields are delimited.
  have hdecode (hskip : ∀ f ∈ m.fields, ctx.registries.fields.knows f.key = false →
      ctx.unknownFields ≠ .reject) (s : Bytes) :
      Message.decode ctx (m.wireBytes OxmField.toBytes ++ s) = .ok (known, Message.size m) := by
    have hfields := (fieldsIn_nil ctx).flatMap fun f hf =>
      delimits_toBytes (hcodes f hf) (hholds f hf) (hskip f hf)
    rw [List.append_nil, List.append_nil] at hfields
    rw [decode_wireBytes hsizes hspan hfields]
    exact congrArg (fun m' => Except.ok (m', m.size)) (ofFields_fields known)
  refine ⟨_, encode_eq_wireBytes m, ?_, fun s => ⟨fun hpolicy => ?_, fun hpolicy => ⟨?_, ?_⟩⟩⟩
  · have hle := Nat.lt_of_le_of_lt (span_restrict_le m ctx.registries.fields) hspan
    rw [toNat_length, Nat.mod_eq_of_lt hle]
    rfl
  · refine hdecode (fun f hf _ => ?_) s
    rw [hpolicy]
    exact nofun
  · intro hall
    refine hdecode (fun f hf hunknown => ?_) s
    rw [hall f hf] at hunknown
    cases hunknown
  · intro f hfirst
    exact decode_wireBytes_of_refusedIn hsizes hspan
      (refusedIn_flatMap hpolicy hcodes hholds hfirst) s

/-- A context that knows labels, but not the field without a payload behind them. -/
def labelsOnly (policy : UnknownFields) : Context where
  registries := { Registries.standard with fields := FieldCatalog.empty.register label }
  unknownFields := policy

theorem partOf_labelsOnly (policy : UnknownFields) :
    (labelsOnly policy).registries.fields.PartOf strict.registries.fields := by
  intro oxmClass field d h
  change (FieldCatalog.empty.register label).lookup? oxmClass field = some d at h
  change ((FieldCatalog.empty.register presence).register label).lookup? oxmClass field = some d
  rw [FieldCatalog.lookup?_register] at h ⊢
  by_cases hkey : label.key = (oxmClass, field)
  · rwa [if_pos hkey] at h ⊢
  · rw [if_neg hkey] at h
    cases h

/-- The label is left, or else the other field is refused. -/
theorem decode_encode_restrict_labelled :
    Message.decode (labelsOnly .skip) ([0, 1, 0, 18, 0, 1, 1, 3, 4, 5, 6, 255, 255, 0, 255, 255, 6,
      0, 0, 0, 0, 0, 0, 0] ++ [9]) =
        .ok (ofFields [⟨label, .bytes [4, 5, 6], some (.bytes [255, 255, 0]), rfl, rfl⟩], 24) ∧
      (Message.decode (labelsOnly .reject) ([0, 1, 0, 18, 0, 1, 1, 3, 4, 5, 6, 255, 255, 0, 255,
        255, 6, 0, 0, 0, 0, 0, 0, 0] ++ [9]) : Except Error (Match × Nat)) =
          .error (.unknownFieldType 0xffff 3) := by
  have hencode : Message.encode (ofFields labelled) = .ok [0, 1, 0, 18, 0, 1, 1, 3, 4, 5, 6, 255,
      255, 0, 255, 255, 6, 0, 0, 0, 0, 0, 0, 0] := rfl
  obtain ⟨b, hb, -, hskip⟩ := decode_encode_restrict (labelsOnly .skip)
    (partOf_labelsOnly .skip) makes_labelled (by decide) (by decide)
  obtain ⟨b', hb', -, hreject⟩ := decode_encode_restrict (labelsOnly .reject)
    (partOf_labelsOnly .reject) makes_labelled (by decide) (by decide)
  rw [hencode] at hb hb'
  obtain rfl := Except.ok.inj hb
  obtain rfl := Except.ok.inj hb'
  exact ⟨(hskip [9]).1 rfl, ((hreject [9]).2 rfl).2 ⟨presence, .bytes [], none, rfl, rfl⟩ rfl⟩

/-- **A field whose code has eight bits is left out**, even where the whole catalog is known. -/
theorem decode_encode_restrict_widened :
    widening.registries.fields.PartOf widening.registries.fields ∧
      (∀ f ∈ [widened], widening.registries.fields.Makes f) ∧
      headerSize + total OxmField.size (ofFields [widened]).fields ≤ 65535 ∧
      widening.unknownFields = .skip ∧
      Message.encode (ofFields [widened]) = .ok widenedBytes ∧
      (ofFields [widened]).restrict widening.registries.fields = ofFields [widened] ∧
      Message.decode widening widenedBytes ≠ .ok
        ((ofFields [widened]).restrict widening.registries.fields,
          Message.size (ofFields [widened])) := by
  have hdecode : Message.decode widening widenedBytes = .ok (all, 16) := by
    with_unfolding_all rfl
  refine ⟨fun _ _ _ h => h, makes_widened, by decide, rfl, rfl, rfl, ?_⟩
  rw [hdecode]
  intro hback
  have hfields : all.fields = [widened] :=
    congrArg (fun decoded : Match × Nat => decoded.1.fields) (Except.ok.inj hback)
  cases hfields

end Match
end OpenFlow
