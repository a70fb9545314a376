import OpenFlow.Proofs.Match.Framed
import OpenFlow.Proofs.Match.Projection
import OpenFlow.Proofs.Wire.Fitting

/-!
# Matches that are cut short

The wire form of a match may be cut anywhere: in front of the fields, in the header of a field, in
its value or its mask, or in the padding.  In front of the fields there is no match, and the input
ends too early.  Everywhere else there is one, and it consists of the fields of which all bytes are
left.  The length in the header is then more than there is, and is held back to the end of the
buffer; a field that would run past this end is not read, nor is one of which not even the header
is there.  Both are judged before anything of the field is read, so no cut is an error.

Main statements:

* `Match.fieldsIn_take`: the fields of a region that is cut short.
* `Match.decode_take`: what a match that is cut short decodes to.
-/

namespace OpenFlow
namespace Match

variable {ctx : Context}

/-! ## The header -/

/-- Without a whole header there is no match. -/
theorem result_read_of_remaining_lt {c : Cursor} (h : c.remaining < headerSize) :
    ((read ctx).run c).result = .error (.truncatedInput .bytes) := by
  have hshort {c : Cursor} (h : c.remaining < 2) :
      Reader.u16.run c = ⟨.error (.truncatedInput .bytes), c, 0⟩ :=
    Reader.run_bind_of_error (Reader.run_bind_of_error (Reader.run_exactly_of_lt h))
  unfold read
  rw [Reader.run_cursor_bind]
  by_cases hcode : c.remaining < 2
  · rw [Reader.run_bind_of_error (hshort hcode)]
  · have hsize : 2 ≤ c.size - c.pos := Nat.le_of_not_lt hcode
    have hfirst : Reader.u16.run c = ⟨.ok _, c.advance 2, 0⟩ := Reader.run_word_of_le _ hsize
    have hlength : (c.advance 2).remaining < 2 := by
      change c.size - c.pos < 4 at h
      change c.size - (c.pos + 2) < 2
      omega
    rw [Reader.run_bind_of_quiet hfirst, Reader.run_bind_of_error (hshort hlength)]

/-- A cut behind the header cuts the region of the fields. -/
theorem fieldRegion_take_eq_take (bs : Bytes) (n : Nat) (declared : UInt16) :
    fieldRegion (bs.take n) declared = (fieldRegion bs declared).take (n - headerSize) := by
  rw [fieldRegion, fieldRegion, List.drop_take, List.take_take, List.take_take, Nat.min_comm]

/-! ## The fields -/

/-- What is left of a field is no field. -/
theorem fieldsIn_take_toBytes {f : OxmField} (h : ctx.registries.fields.Finds f.descriptor)
    {n : Nat} (hn : n < f.size) : FieldsIn ctx (f.toBytes.take n) [] := by
  have hlength : (f.toBytes.take n).length = n :=
    List.length_take_of_le (Nat.le_of_lt (f.length_toBytes.symm ▸ hn))
  by_cases hfour : n < OxmHeader.size
  · exact .ending (hlength.symm ▸ hfour)
  · have hlookup : ctx.registries.fields.lookup? f.header.oxmClass f.header.field =
        some f.descriptor := h.holds
    refine .overrun (OxmField.peek?_take_toBytes h.field_lt (Nat.le_of_not_lt hfour)) ?_ ?_
    · intro _ hnone
      rw [hlookup] at hnone
      cases hnone
    · rw [FieldCatalog.extent_of_known hlookup, hlength]
      exact hn

/-- **The fields of a region that is cut short** are those of which all bytes are left. -/
theorem fieldsIn_take {fields : List OxmField}
    (h : ∀ f ∈ fields, ctx.registries.fields.Finds f.descriptor) (n : Nat) :
    FieldsIn ctx ((fields.flatMap OxmField.toBytes).take n)
      (fields.take (fitting OxmField.size n fields)) := by
  induction fields generalizing n with
  | nil =>
    rw [List.flatMap_nil, List.take_nil]
    exact fieldsIn_nil ctx
  | cons f fields ih =>
    have hfinds := h f (List.mem_cons_self ..)
    rw [List.flatMap_cons]
    by_cases hn : f.size ≤ n
    · have hrest := ih (fun g hg => h g (List.mem_cons_of_mem f hg)) (n - f.size)
      rw [take_fitting_cons_of_le hn, List.take_append, f.length_toBytes,
        List.take_of_length_le (f.length_toBytes.symm ▸ hn), ← OxmField.declaring_width,
        OxmField.declaring_eq, List.append_assoc]
      exact .known (opens_declaring hfinds _) hrest
    · have hcut : n < f.size := Nat.lt_of_not_le hn
      rw [take_fitting_cons_of_lt hcut,
        List.take_append_of_le_length (f.length_toBytes.symm ▸ Nat.le_of_lt hcut)]
      exact fieldsIn_take_toBytes hfinds hcut

/-! ## The match -/

/-- The leading fields of a match make a match that is not longer. -/
theorem span_ofFields_take_le (m : Match) (k : Nat) :
    (ofFields (m.fields.take k)).fields = m.fields.take k ∧
      (ofFields (m.fields.take k)).span ≤ m.span := by
  have hfields : (ofFields (m.fields.take k)).fields = m.fields.take k :=
    fields_ofFields (m.nodup.sublist ((List.take_sublist k m.fields).map _))
  refine ⟨hfields, ?_⟩
  rw [span, span, hfields]
  conv_rhs => rw [← List.take_append_drop k m.fields, total_append]
  omega

/-- In front of the fields of a match the input ends too early. -/
theorem decode_take_of_lt (bs : Bytes) {n : Nat} (hn : n < headerSize) :
    (Message.decode ctx (bs.take n) : Except Error (Match × Nat)) =
      .error (.truncatedInput .bytes) := by
  have hremaining : (Cursor.start (bs.take n)).remaining < headerSize :=
    Nat.lt_of_le_of_lt (List.length_take_le n bs) hn
  exact Message.decode_of_result_eq_error (result_read_of_remaining_lt hremaining)

/-- Behind the header of a match the fields that fit are decoded. -/
theorem decode_take_of_le {m : Match}
    (h : ∀ f ∈ m.fields, ctx.registries.fields.Finds f.descriptor) (hlt : m.span < 65536)
    {n : Nat} (hn : headerSize ≤ n) :
    Message.decode ctx ((m.wireBytes OxmField.toBytes).take n) =
      .ok (ofFields (m.fields.take (fitting OxmField.size (n - headerSize) m.fields)),
        min n m.size) := by
  have hpeek := peekHeader?_wireBytes m OxmField.toBytes []
  have hregion := fieldRegion_wireBytes OxmField.length_toBytes hlt []
  have hfields := fieldsIn_take h (n - headerSize)
  rw [List.append_nil] at hpeek hregion
  rw [← hregion, ← fieldRegion_take_eq_take] at hfields
  obtain ⟨w, hrun⟩ := run_read_of_fieldsIn
    (c := Cursor.start ((m.wireBytes OxmField.toBytes).take n))
    (Element.peekHeader?_take hn hpeek) (headerSize_le_length hlt) hfields
  have hend : min (0 + m.size) ((m.wireBytes OxmField.toBytes).take n).length = min n m.size := by
    rw [List.length_take, length_wireBytes OxmField.length_toBytes hlt]
    omega
  rw [← hend]
  exact Message.decode_of_run hrun

/-- **A match that is cut short decodes to its leading fields**, if their codes have seven bits.
Where the header is not whole, the input ends too early.  Behind the header, decoding gives the
match of as many fields as fit in front of the cut, with the length that these fields take, and goes
on to the cut or to the end of the padding. -/
theorem decode_take (ctx : Context) (m : Match)
    (h : ∀ f ∈ m.fields, ctx.registries.fields.Holds f.descriptor)
    (hcode : ∀ f ∈ m.fields, f.descriptor.field < 128)
    (hlt : headerSize + total OxmField.size m.fields ≤ 65535) :
    ∃ b, Message.encode m = .ok b ∧ b.length = Message.size m ∧ ∀ n,
      (n < headerSize → (Message.decode ctx (b.take n) : Except Error (Match × Nat)) =
        .error (.truncatedInput .bytes)) ∧
      (headerSize ≤ n → ∃ k ≤ m.fields.length, ∃ m' : Match,
        (∀ j ≤ m.fields.length,
          j ≤ k ↔ headerSize + total OxmField.size (m.fields.take j) ≤ n) ∧
        m'.fields = m.fields.take k ∧
        m'.length.toNat = headerSize + total OxmField.size m'.fields ∧
        Message.decode ctx (b.take n) = .ok (m', min n (Message.size m))) := by
  have hspan : m.span < 65536 := Nat.lt_succ_of_le hlt
  have hfinds : ∀ f ∈ m.fields, ctx.registries.fields.Finds f.descriptor := fun f hf =>
    ⟨h f hf, hcode f hf⟩
  refine ⟨_, encode_eq_wireBytes m, length_wireBytes OxmField.length_toBytes hspan,
    fun n => ⟨decode_take_of_lt _, fun hn => ?_⟩⟩
  let k := fitting OxmField.size (n - headerSize) m.fields
  obtain ⟨hfields, hle⟩ := span_ofFields_take_le m k
  refine ⟨k, fitting_le_length _ _ _, _, fun j hj => ?_, hfields, ?_, decode_take_of_le hfinds hspan
    hn⟩
  · rw [le_fitting_iff hj]
    omega
  · rw [toNat_length, Nat.mod_eq_of_lt (Nat.lt_of_le_of_lt hle hspan)]
    rfl

/-- A cut in the header of the second field leaves the first one, and one in the header of the match
leaves nothing. -/
theorem decode_take_labelled :
    Message.decode strict [0, 1, 0, 18, 0, 1, 1, 3, 4, 5, 6, 255, 255, 0, 255, 255, 6] =
        .ok (ofFields [⟨label, .bytes [4, 5, 6], some (.bytes [255, 255, 0]), rfl, rfl⟩], 17) ∧
      (Message.decode strict [0, 1, 0] : Except Error (Match × Nat)) =
        .error (.truncatedInput .bytes) := by
  have hholds : ∀ f ∈ (ofFields labelled).fields, strict.registries.fields.Holds f.descriptor :=
    fun f hf => (makes_labelled f (mem_of_mem_fields_ofFields hf)).holds
  obtain ⟨b, hb, -, hcut⟩ :=
    decode_take strict (ofFields labelled) hholds (by decide) (by decide)
  have hencode : Message.encode (ofFields labelled) = .ok [0, 1, 0, 18, 0, 1, 1, 3, 4, 5, 6, 255,
      255, 0, 255, 255, 6, 0, 0, 0, 0, 0, 0, 0] := rfl
  rw [hencode] at hb
  obtain rfl := Except.ok.inj hb
  refine ⟨?_, (hcut 3).1 (by decide)⟩
  obtain ⟨k, hk, m', hwhole, hfields, -, hdecode⟩ := (hcut 17).2 (by decide)
  -- The first field ends at byte 14, and the second one at byte 18.
  have hfirst : 1 ≤ k := (hwhole 1 (by decide)).mpr (by decide)
  have hsecond : ¬ 2 ≤ k := fun h => absurd ((hwhole 2 (by decide)).mp h) (by decide)
  obtain rfl : k = 1 := by omega
  have hmatch := ofFields_fields m'
  rw [hfields] at hmatch
  rw [← hmatch] at hdecode
  exact hdecode

/-- **A field whose code has eight bits is not among the leading fields**, though there is room for
it and nothing is cut. -/
theorem decode_take_widened :
    (∀ f ∈ (ofFields [widened]).fields, widening.registries.fields.Holds f.descriptor) ∧
      headerSize + total OxmField.size (ofFields [widened]).fields ≤ 65535 ∧
      Message.encode (ofFields [widened]) = .ok widenedBytes ∧ widenedBytes.length = 16 ∧
      headerSize + total OxmField.size ((ofFields [widened]).fields.take 1) ≤ 16 ∧
      ∀ m' : Match, m'.fields = (ofFields [widened]).fields.take 1 →
        Message.decode widening (widenedBytes.take 16) ≠ .ok (m', 16) := by
  have hholds : ∀ f ∈ (ofFields [widened]).fields, widening.registries.fields.Holds f.descriptor :=
    fun f hf => (makes_widened f (mem_of_mem_fields_ofFields hf)).holds
  have hdecode : Message.decode widening (widenedBytes.take 16) = .ok (all, 16) := by
    with_unfolding_all rfl
  refine ⟨hholds, by decide, rfl, rfl, by decide, ?_⟩
  intro m' hfields hback
  rw [hdecode] at hback
  obtain ⟨rfl, -⟩ := Prod.mk.inj (Except.ok.inj hback)
  cases hfields

end Match
end OpenFlow
