import OpenFlow.Proofs.Match.Length
import OpenFlow.Proofs.Wire.Message

/-!
# Matches, written and read back

The fields of a match are read one after the other, each from the bytes that its own
width calls for, and setting them in turn makes the match again.  The width of a field is
the one that the catalog gives, so all that a match needs is a catalog that holds the
descriptors of its fields, and codes that their headers keep whole.

Main statements:

* `Match.agree_of_finds`: a match of fields of the catalog is read back, if its length fits
  16 bits.
* `Match.decode_encode_ofFields`: what is built of the entries of a catalog, by setting one
  field after the other, is decoded from its wire form and raises no warning.
-/

namespace OpenFlow

/-- Reading a buffer of its own leaves the cursor where it is. -/
theorem Reader.run_within {α : Type} (span : Bytes) (r : Reader α) (c : Cursor) :
    (within span r).run c =
      ⟨(r.run (Cursor.start span)).result, c, (r.run (Cursor.start span)).warnings⟩ := rfl

namespace Match

/-- A match that its wire form determines: its fields are of the basic class, and its header
and its fields have a length that fits 16 bits. -/
structure WellFormed (m : Match) : Prop where
  basic : ∀ f ∈ m.fields, f.IsBasic
  span_lt : m.span < 65536

variable {ctx : Context}

/-! ## The fields -/

/-- **One step of reading the fields of a region**, in terms of the header in front. -/
theorem readFields_eq (ctx : Context) (region : Bytes) :
    readFields ctx region =
      match OxmHeader.peek? region with
      | none => pure []
      | some header =>
        match ctx.registries.fields.lookup? header.oxmClass header.field with
        | some d =>
          let size := OxmHeader.size + d.width.toNat * OxmHeader.copiesOf header.hasMask
          if region.length < size then pure []
          else do
            let field ← Reader.within (region.take size) (OxmField.read ctx.registries.fields)
            Reader.pass size
            return field :: (← readFields ctx (region.drop size))
        | none =>
          if ctx.unknownFields = .reject then
            Reader.fail (.unknownFieldType header.oxmClass header.field)
          else if region.length < header.wireLength then pure []
          else Reader.pass header.wireLength >>= fun _ =>
            readFields ctx (region.drop header.wireLength) := by
  rcases region with _ | ⟨b₀, _ | ⟨b₁, _ | ⟨b₂, _ | ⟨b₃, payload⟩⟩⟩⟩
  · simp [readFields, OxmHeader.peek?]
  · simp [readFields, OxmHeader.peek?]
  · simp [readFields, OxmHeader.peek?]
  · simp [readFields, OxmHeader.peek?]
  · have hshort (n : Nat) : (payload.take n).length < n ↔
        (b₀ :: b₁ :: b₂ :: b₃ :: payload).length < OxmHeader.size + n := by
      rw [List.length_take]
      simp only [List.length_cons, OxmHeader.size]
      omega
    have htake (n : Nat) : (b₀ :: b₁ :: b₂ :: b₃ :: payload).take (OxmHeader.size + n) =
        b₀ :: b₁ :: b₂ :: b₃ :: payload.take n := by
      rw [Nat.add_comm]
      rfl
    have hdrop (n : Nat) : (b₀ :: b₁ :: b₂ :: b₃ :: payload).drop (OxmHeader.size + n) =
        payload.drop n := by
      rw [Nat.add_comm]
      rfl
    rw [readFields]
    simp only [OxmHeader.peek?]
    generalize OxmHeader.ofWord (UInt32.ofNat (Bytes.value [b₀, b₁, b₂, b₃])) = header
    cases ctx.registries.fields.lookup? header.oxmClass header.field with
    | none => simp only [OxmHeader.wireLength, Nat.add_sub_cancel_left, hshort, hdrop]
    | some d => simp only [hshort, htake, hdrop]

/-- One step of reading the fields of a region: in front of a field of a known type, the field is
read from its own bytes. -/
theorem readFields_append {f : OxmField} (h : ctx.registries.fields.Finds f.descriptor)
    {bs : Bytes} (hbs : f.write.encode = .ok bs) (region : Bytes) :
    readFields ctx (bs ++ region) = do
      let field ← Reader.within bs (OxmField.read ctx.registries.fields)
      Reader.pass bs.length
      return field :: (← readFields ctx region) := by
  have hlen : bs.length = OxmHeader.size + f.width * OxmHeader.copiesOf f.hasMask :=
    (OxmField.spans_write f).length_eq hbs
  have hpeek : OxmHeader.peek? (bs ++ region) = some f.header :=
    OxmField.peek?_of_encode h.field_lt
      (Writer.encode_append_of_ok hbs (Writer.encode_bytes region))
  have hlookup : ctx.registries.fields.lookup? f.header.oxmClass f.header.field =
      some f.descriptor := h.holds
  have hsize : OxmHeader.size + f.descriptor.width.toNat * OxmHeader.copiesOf f.header.hasMask =
      bs.length := hlen.symm
  have hfits : ¬ (bs ++ region).length < bs.length := by
    rw [List.length_append]
    omega
  rw [readFields_eq, hpeek]
  simp only [hlookup, hsize, if_neg hfits, List.take_left, List.drop_left]

/-- The fields of a region that holds nothing else. -/
theorem run_readFields {fields : List OxmField}
    (h : ∀ f ∈ fields, ctx.registries.fields.Finds f.descriptor) {bs : Bytes}
    (hbs : (Writer.each OxmField.write fields).encode = .ok bs) (c : Cursor) :
    (readFields ctx bs).run c = ⟨.ok fields, c.advance bs.length, 0⟩ := by
  induction fields generalizing bs c with
  | nil =>
    rw [← Except.ok.inj hbs]
    change (readFields ctx []).run c = _
    rw [readFields]
    · exact congrArg (Outcome.mk (.ok []) · 0) c.advance_zero.symm
    · intros
      contradiction
  | cons f fields ih =>
    obtain ⟨xs, hxs, ys, hys, rfl⟩ := Writer.encode_each_cons_eq_ok_iff.mp hbs
    have hfinds := h f (List.mem_cons_self ..)
    have hfield := (OxmField.agree _ f hfinds (Cursor.start (xs ++ [])) []).run_eq hxs
      (Cursor.Faces.start _)
    have hrest := ih (fun g hg => h g (List.mem_cons_of_mem f hg)) hys (c.advance xs.length)
    have hwithin : (Reader.within xs (OxmField.read ctx.registries.fields)).run c =
        ⟨.ok f, c, 0⟩ := by
      rw [List.append_nil] at hfield
      rw [Reader.run_within, hfield]
    rw [readFields_append hfinds hxs, Reader.run_bind_of_quiet hwithin, Reader.run_pass_bind,
      Reader.run_bind_of_quiet hrest, Cursor.advance_advance, List.length_append]
    rfl

/-! ## The match -/

/-- The fields of a match and their padding, from behind the header: reading goes on from the end
of the padding, counted from the start of the match. -/
theorem agree_fields {m : Match}
    (h : ∀ f ∈ m.fields, ctx.registries.fields.Finds f.descriptor) (c : Cursor) (tail : Bytes) :
    Agree (Writer.each OxmField.write m.fields ++ Writer.zeros (padding8 m.span))
      (Reader.cursor >>= fun c' => readFields ctx (c'.rest.take (m.span - headerSize)) >>=
        fun fields => Reader.moveTo (c.advanceWithin (align8 m.span)) >>= fun _ =>
          pure (ofFields fields))
      (c.advance headerSize) (align8 m.span - headerSize) tail m := by
  obtain ⟨bs, hbs, hlen⟩ := spans_fields m
  have hspan : m.span = headerSize + bs.length := by
    rw [hlen]
    rfl
  have hpad := add_padding8 m.span
  refine ⟨_, Writer.encode_append_of_ok hbs (Writer.encode_zeros _), ?_, fun hc => ?_⟩
  · rw [List.length_append, Bytes.length_zeros]
    omega
  · have hregion : (c.advance headerSize).rest.take (m.span - headerSize) = bs := by
      rw [hc.rest_eq, List.append_assoc, hspan, Nat.add_sub_cancel_left, List.take_left]
    have hsize := hc.size_eq
    have hend : c.pos + align8 m.span ≤ c.size := by
      rw [List.length_append, List.length_append, Bytes.length_zeros, Cursor.pos_advance,
        Cursor.size_advance] at hsize
      omega
    have hmove : (c.advance headerSize).advance (align8 m.span - headerSize) =
        c.advance (align8 m.span) := by
      rw [Cursor.advance_advance]
      congr 1
      omega
    rw [Reader.run_cursor_bind, hregion,
      Reader.run_bind_of_quiet (run_readFields h hbs _), ofFields_fields, hmove,
      Cursor.advanceWithin_eq_advance hend]
    rfl

/-- **A match of fields of the catalog is read back**, whatever follows it, if its length fits
16 bits. -/
theorem agree_of_finds {m : Match}
    (h : ∀ f ∈ m.fields, ctx.registries.fields.Finds f.descriptor) (hlt : m.span < 65536)
    (c : Cursor) (tail : Bytes) : Agree m.write (read ctx) c m.size tail m := by
  have hlength : m.length.toNat = m.span := by
    rw [toNat_length, Nat.mod_eq_of_lt hlt]
  have hheader : ¬ m.span < headerSize := Nat.not_lt.mpr (Nat.le_add_right _ _)
  unfold write read size
  rw [hlength]
  simp only [Writer.append_assoc]
  refine Agree.cursor (Agree.of_size_eq (Agree.u16 (Agree.u16
    (m := align8 m.span - headerSize) ?_)) ?_)
  · rw [hlength, if_neg hheader, if_pos rfl, Cursor.advance_advance]
    exact agree_fields h c tail
  · have hle := le_align8 m.span
    have hfour : 4 ≤ m.span := Nat.le_add_right _ _
    change 2 + (2 + (align8 m.span - 4)) = align8 m.span
    omega

/-- A match of basic fields is read back with the basic catalog. -/
theorem agree (hfields : ctx.registries.fields = .basic) {m : Match} (h : m.WellFormed)
    (c : Cursor) (tail : Bytes) : Agree m.write (read ctx) c m.size tail m :=
  agree_of_finds (fun f hf => (h.basic f hf).finds (hfields ▸ FieldCatalog.holds_basic)) h.span_lt
    c tail

/-! ## Matches over a catalog -/

end Match

/-- A field that is built of an entry of the catalog. -/
def FieldCatalog.Makes (catalog : FieldCatalog) (f : OxmField) : Prop :=
  ∃ d value mask, catalog.Holds d ∧ OxmField.build d value mask = .ok f

/-- A field has the descriptor that it is built of. -/
theorem OxmField.descriptor_of_build {d : FieldDescriptor} {value : OxmValue}
    {mask : Option OxmValue} {f : OxmField} (h : build d value mask = .ok f) :
    f.descriptor = d := by
  cases mask with
  | none =>
    change exact d value = .ok f at h
    unfold exact at h
    split at h
    · rw [← Except.ok.inj h]
    · exact nomatch h
  | some mask =>
    change masked d value mask = .ok f at h
    unfold masked at h
    split at h
    · split at h
      · split at h
        · rw [← Except.ok.inj h]
        · exact nomatch h
      · exact nomatch h
    · exact nomatch h

theorem FieldCatalog.Makes.holds {catalog : FieldCatalog} {f : OxmField} (h : catalog.Makes f) :
    catalog.Holds f.descriptor := by
  obtain ⟨d, value, mask, hholds, hbuild⟩ := h
  rw [OxmField.descriptor_of_build hbuild]
  exact hholds

/-- The entry is found from the wire if its code has seven bits. -/
theorem FieldCatalog.Makes.finds {catalog : FieldCatalog} {f : OxmField} (h : catalog.Makes f)
    (hcode : f.descriptor.field < 128) : catalog.Finds f.descriptor :=
  ⟨h.holds, hcode⟩

namespace Match

/-- **Matches over any catalog are written and read back.**  Fields that are built of entries of
the catalog, whose codes have seven bits, and set one after the other make a match that is decoded
from its wire form, whatever follows it and whatever is done about unknown fields, if the length is
not too much for 16 bits.  No length raises a warning. -/
theorem decode_encode_ofFields (ctx : Context) {fields : List OxmField}
    (h : ∀ f ∈ fields, ctx.registries.fields.Makes f)
    (hcode : ∀ f ∈ fields, f.descriptor.field < 128)
    (hlt : headerSize + total OxmField.size (ofFields fields).fields ≤ 65535) :
    ∃ b, Message.encode (ofFields fields) = .ok b ∧ b.length = Message.size (ofFields fields) ∧
      ∀ s, Message.decode ctx (b ++ s) =
          .ok (ofFields fields, Message.size (ofFields fields)) ∧
        ((Message.read ctx : Reader Match).run (Cursor.start (b ++ s))).warnings = 0 := by
  have hfinds : ∀ f ∈ (ofFields fields).fields, ctx.registries.fields.Finds f.descriptor :=
    fun f hf =>
      let hmem := mem_of_mem_fields_ofFields hf
      (h f hmem).finds (hcode f hmem)
  have hagree := agree_of_finds hfinds (Nat.lt_succ_of_le hlt)
  obtain ⟨b, hb, hlen, hdecode⟩ := Message.decode_of_agree hagree
  refine ⟨b, hb, hlen, fun s => ⟨hdecode s, ?_⟩⟩
  have hrun := (hagree (Cursor.start (b ++ s)) s).run_eq hb (Cursor.Faces.start _)
  exact congrArg Outcome.warnings hrun

/-- A type of field without a payload. -/
def presence : FieldDescriptor := .ofCodes "PRESENCE" 0xffff 3 0 false

/-- A type of field of three bytes, with a mask. -/
def label : FieldDescriptor := .ofCodes "LABEL" 1 0 3 true

/-- A catalog of two types that are not basic ones, and a context that refuses all others. -/
def strict : Context where
  registries := { Registries.standard with
    fields := (FieldCatalog.empty.register presence).register label }
  unknownFields := .reject

/-- A label that is set twice, at first without a mask, around a field without a payload. -/
def labelled : List OxmField :=
  [⟨label, .bytes [1, 2, 3], none, rfl, rfl⟩, ⟨presence, .bytes [], none, rfl, rfl⟩,
   ⟨label, .bytes [4, 5, 6], some (.bytes [255, 255, 0]), rfl, rfl⟩]

theorem makes_labelled : ∀ f ∈ labelled, strict.registries.fields.Makes f :=
  List.forall_mem_cons.mpr ⟨⟨label, .bytes [1, 2, 3], none, rfl, rfl⟩,
    List.forall_mem_cons.mpr ⟨⟨presence, .bytes [], none, rfl, rfl⟩,
      List.forall_mem_singleton.mpr
        ⟨label, .bytes [4, 5, 6], some (.bytes [255, 255, 0]), rfl, rfl⟩⟩⟩

/-- The second label has replaced the first one, and both types are read at the widths of the
catalog. -/
theorem decode_encode_ofFields_labelled :
    Message.decode strict ([0, 1, 0, 18, 0, 1, 1, 3, 4, 5, 6, 255, 255, 0, 255, 255, 6, 0, 0, 0, 0,
      0, 0, 0] ++ [9]) = .ok (ofFields labelled, 24) := by
  have hencode : Message.encode (ofFields labelled) = .ok [0, 1, 0, 18, 0, 1, 1, 3, 4, 5, 6, 255,
      255, 0, 255, 255, 6, 0, 0, 0, 0, 0, 0, 0] := rfl
  obtain ⟨b, hb, -, hdecode⟩ :=
    decode_encode_ofFields strict makes_labelled (by decide) (by decide)
  rw [hencode] at hb
  obtain rfl := Except.ok.inj hb
  exact (hdecode [9]).1

/-- A type of field whose code has eight bits, so that its headers do not keep it whole. -/
def wide : FieldDescriptor := ⟨"WIDE", 0xffff, 200, 4, false⟩

/-- A context that knows this type and no other one. -/
def widening : Context where
  registries := { Registries.standard with fields := FieldCatalog.empty.register wide }

/-- A field of this type. -/
def widened : OxmField := ⟨wide, .u32 7, none, rfl, rfl⟩

/-- The header has the code 72, which is that of no type. -/
def widenedBytes : Bytes := [0, 1, 0, 12, 255, 255, 0x90, 4, 0, 0, 0, 7, 0, 0, 0, 0]

theorem makes_widened : ∀ f ∈ [widened], widening.registries.fields.Makes f :=
  List.forall_mem_singleton.mpr ⟨wide, .u32 7, none, rfl, rfl⟩

/-- **A field whose code has eight bits does not come back**, though its type is in the catalog. -/
theorem decode_encode_ofFields_widened :
    (∀ f ∈ [widened], widening.registries.fields.Makes f) ∧
      headerSize + total OxmField.size (ofFields [widened]).fields ≤ 65535 ∧
      Message.encode (ofFields [widened]) = .ok widenedBytes ∧
      Message.decode widening widenedBytes = .ok (all, 16) ∧
      Message.decode widening widenedBytes ≠
        .ok (ofFields [widened], Message.size (ofFields [widened])) := by
  have hdecode : Message.decode widening widenedBytes = .ok (all, 16) := by
    with_unfolding_all rfl
  refine ⟨makes_widened, by decide, rfl, hdecode, ?_⟩
  rw [hdecode]
  intro hback
  have hfields : all.fields = [widened] :=
    congrArg (fun decoded : Match × Nat => decoded.1.fields) (Except.ok.inj hback)
  cases hfields

end Match
end OpenFlow
