import OpenFlow.Proofs.Element.Lawful
import OpenFlow.Proofs.Oxm.Header
import OpenFlow.Proofs.Text.RoundTrip
import OpenFlow.Table.Wire

/-!
# Table features, written and read back

The properties of a table hold lists of their own: of element ids, or of header words of
match fields.  A header word comes back if its field code has seven bits, and the
properties without a code for the table-miss entry come back if they are not marked as
being for it.

Main statements:

* `ElementId.readsBack`, `TableProperty.readsBack`: what is well formed is read back.
* `TableFeatures.agree`: so are the features of a table.
-/

namespace OpenFlow

namespace ElementId

instance : Element.Lawful ElementId where
  write_eq e := ⟨Writer.bytes e.body, inferInstance, rfl⟩
  headerSize_le_length _ := Nat.le_add_right _ _
  spans_write h := Writer.Spans.append (Element.spans_writeHeader h) (Writer.Spans.bytes rfl)

/-- An element id that its wire form determines: it has the length that it declares. -/
def WellFormed (e : ElementId) : Prop :=
  e.length.toNat = Element.commonHeaderSize + e.body.length

/-- **A well-formed element id is read back.** -/
theorem readsBack {ctx : Context} {e : ElementId} (h : e.WellFormed) :
    Element.ReadsBack ctx e := by
  have hlength : UInt16.ofNat (Element.length e) = e.length := Element.ofNat_length h
  have hread : Element.read ctx e = Element.readHeader >>= fun x => Reader.rest >>= fun body =>
      pure (ElementId.mk x.1 x.2 body) := rfl
  have hform : Element.SameForm ctx e := fun _ => rfl
  refine Element.ReadsBack.of_agree_nil (n := e.body.length) rfl hform hread fun _ c => ?_
  rw [hlength]
  exact Agree.map (Agree.rest e.body c)

end ElementId

namespace TableProperty

/-! ## What is written -/

instance (p : TableProperty) : Writer.Uniform p.writeBody := by
  cases p <;> unfold writeBody <;> infer_instance

/-- The header word of a match field. -/
theorem agree_fieldHeader {h : OxmHeader} (hf : h.field < 128) (c : Cursor) (tail : Bytes) :
    Agree (Writer.u32 h.word) readFieldHeader c 4 tail h := by
  have hmap := Agree.last_u32 (k := h.word) (g := OxmHeader.ofWord) c tail
  rw [OxmHeader.ofWord_word_of_lt hf] at hmap
  exact hmap

/-- What follows the header of a property has the length that the header says. -/
theorem spans_writeBody {p : TableProperty} (h : p.length < 65536) :
    Writer.Spans p.writeBody p.bodyLength := by
  cases p with
  | instructions miss ids | actions use miss ids =>
    exact Element.spans_writeList (Element.length_lt_of_mem h)
  | nextTables miss tables => exact Writer.Spans.bytes rfl
  | fields use miss headers => exact Writer.Spans.each_const fun h _ => Writer.Spans.u32 h.word
  | unknown code length body => exact Writer.Spans.bytes rfl

instance : Element.Lawful TableProperty where
  write_eq p := ⟨p.writeBody, inferInstance, rfl⟩
  headerSize_le_length _ := Nat.le_add_right _ _
  spans_write h := Writer.Spans.append (Element.spans_writeHeader h) (spans_writeBody h)

/-! ## What is read back -/

/-- A property that its wire form determines: what it lists is well formed, a property
without a code for the table-miss entry is not for it, and one of an unknown code has the
length that it declares. -/
def WellFormed : TableProperty → Prop
  | instructions _ ids | actions _ _ ids => ∀ e ∈ ids, e.WellFormed
  | nextTables _ _ => True
  | fields use miss headers =>
    ((use = .pattern ∨ use = .wildcards) → miss = false) ∧ ∀ h ∈ headers, h.field < 128
  | unknown code length body =>
    types.lookup? code = none ∧ length.toNat = Element.commonHeaderSize + body.length

variable {ctx : Context}

/-- A well-formed property is read like the blank of its type, where its type is known. -/
theorem sameForm {p : TableProperty} (hknown : Element.KnowsType ctx p) (h : p.WellFormed) :
    Element.SameForm ctx p := by
  intro declared
  have htypes : Element.registry? Registries.standard = some types := rfl
  rw [hknown]
  cases p with
  | instructions miss ids | nextTables miss tables =>
    cases miss <;> rw [Element.blank_of_lookup htypes rfl] <;> rfl
  | actions use miss ids =>
    cases use <;> cases miss <;> rw [Element.blank_of_lookup htypes rfl] <;> rfl
  | fields use miss headers =>
    cases use with
    | pattern =>
      obtain rfl := h.1 (Or.inl rfl)
      rw [Element.blank_of_lookup htypes rfl]
      rfl
    | wildcards =>
      obtain rfl := h.1 (Or.inr rfl)
      rw [Element.blank_of_lookup htypes rfl]
      rfl
    | writeSetField | applySetField =>
      cases miss <;> rw [Element.blank_of_lookup htypes rfl] <;> rfl
  | unknown code length body =>
    rw [show Element.code (unknown code length body) = code from rfl,
      Element.blank_of_lookup_none htypes h.1]
    rfl

/-- What reading a property back asks of what it holds: it lists what is well formed, and no more
element ids than are allowed, and a property of an unknown code has the length that it declares. -/
def Legible (ctx : Context) : TableProperty → Prop
  | instructions _ ids | actions _ _ ids => ctx.Allows ids.length ∧ ∀ e ∈ ids, e.WellFormed
  | nextTables _ _ => True
  | fields _ _ headers => ∀ h ∈ headers, h.field < 128
  | unknown _ length body => length.toNat = Element.commonHeaderSize + body.length

theorem WellFormed.legible (hlimit : ctx.elementLimit = none) {p : TableProperty}
    (h : p.WellFormed) : p.Legible ctx := by
  cases p with
  | instructions miss ids | actions use miss ids => exact ⟨.of_unlimited hlimit _, h⟩
  | nextTables miss tables => trivial
  | fields use miss headers => exact h.2
  | unknown code length body => exact h.2

/-- Element ids that take up the body of a property. -/
theorem agree_ids {ids : List ElementId} (hlimit : ctx.Allows ids.length)
    (h : ∀ e ∈ ids, e.WellFormed)
    (hlt : Element.commonHeaderSize + Element.listLength ids < 65536) (c : Cursor)
    (tail : Bytes) :
    Agree (Element.writeList ids) (Element.readList ctx (Element.listLength ids)) c
      (Element.listLength ids) tail ids := by
  have hids : ∀ e ∈ ids, Element.ReadsBack ctx e := by
    intro e he
    exact ElementId.readsBack (h e he)
  exact Element.agree_list hlimit hids (Element.length_lt_of_mem hlt) c tail

/-- What follows the header of a property. -/
theorem agree_body {p : TableProperty} (h : p.Legible ctx)
    (hlt : p.length < 65536) (c : Cursor) :
    Agree p.writeBody (readBody ctx (UInt16.ofNat p.length) p) c p.bodyLength [] p := by
  have hlength : (UInt16.ofNat p.length).toNat - Element.commonHeaderSize = p.bodyLength := by
    rw [UInt16.toNat_ofNat_of_lt' hlt]
    exact Nat.add_sub_cancel_left _ _
  unfold readBody
  simp only [hlength]
  cases p with
  | instructions miss ids | actions use miss ids =>
    exact Agree.map (agree_ids h.1 h.2 hlt c [])
  | nextTables miss tables => exact Agree.map (Agree.rest tables c)
  | fields use miss headers =>
    have hcount : 4 * headers.length / 4 = headers.length := by omega
    change Agree _ (Reader.times readFieldHeader (4 * headers.length / 4) >>= _) _ _ _ _
    rw [hcount]
    exact Agree.map (Agree.times (fun x hx => agree_fieldHeader (h x hx)) c [])
  | unknown code length body =>
    rw [show UInt16.ofNat (unknown code length body).length = length from
      Element.ofNat_length h]
    exact Agree.map (Agree.rest body c)

/-- A property is read back if it is read like its blank and what it holds is read back. -/
theorem readsBack_of_sameForm {p : TableProperty} (hform : Element.SameForm ctx p)
    (h : p.Legible ctx) : Element.ReadsBack ctx p := by
  have hread : Element.read ctx p = Element.readHeader >>= fun x => readBody ctx x.2 p := rfl
  exact Element.ReadsBack.of_agree_nil rfl hform hread fun hlt c => agree_body h hlt c

/-- **A well-formed property is read back.** -/
theorem readsBack (hreg : ctx.registries = .standard) (hlimit : ctx.elementLimit = none)
    {p : TableProperty} (h : p.WellFormed) : Element.ReadsBack ctx p :=
  readsBack_of_sameForm (sameForm (Element.knowsType_of_standard hreg p) h) (h.legible hlimit)

end TableProperty

namespace TableFeatures

instance (t : TableFeatures) : Writer.Uniform t.write :=
  inferInstanceAs (Writer.Uniform (Writer.length16 _ _ ++ Writer.u8 _ ++ Writer.zeros 5
    ++ Writer.text _ _ ++ Writer.u64 _ ++ Writer.u64 _ ++ Writer.u32 _ ++ Writer.u32 _
    ++ Element.writeList t.properties))

theorem opensWith_write (t : TableFeatures) : t.write.OpensWith t.size := by
  unfold write
  simp only [Writer.append_assoc]
  exact ⟨_, _, inferInstance, rfl⟩

variable {ctx : Context}

/-- The features of a table are read back with the name that its field gives back, if their
properties are read back and as many are allowed. -/
theorem agree_of_readsBack {t : TableFeatures} {name : String}
    (hname : ∀ c tail, Agree (Writer.text nameWidth t.name) (Reader.text nameWidth .tableName) c
      nameWidth tail name)
    (hlimit : ctx.Allows t.properties.length)
    (hproperties : ∀ p ∈ t.properties, Element.ReadsBack ctx p) (hlt : t.size < 65536)
    (c : Cursor) (tail : Bytes) :
    Agree t.write (read ctx) c t.size tail { t with name := name } := by
  have hfixed : ¬ (UInt16.ofNat t.size).toNat < fixedSize := by
    rw [UInt16.toNat_ofNat_of_lt' hlt]
    exact Nat.not_lt.mpr (Nat.le_add_right _ _)
  unfold write read
  simp only [Writer.append_assoc]
  refine Agree.of_size_eq (Agree.length16 (m := t.size - 2) hlt ?_) ?_
  · rw [if_neg hfixed]
    refine Agree.of_size_eq (Agree.u8 (Agree.zeros (Agree.bind (hname _) (Agree.u64 (Agree.u64
      (Agree.u32 (Agree.u32 (Agree.map (Element.agree_list_left hlimit hproperties hlt _
        tail))))))))) ?_
    unfold size fixedSize nameWidth
    omega
  · have hle : 64 ≤ t.size := Nat.le_add_right _ _
    omega

/-- The features of a table that their wire form determines. -/
structure WellFormed (t : TableFeatures) : Prop where
  name_fits : Text.Fits nameWidth t.name
  properties : ∀ p ∈ t.properties, p.WellFormed

/-- **The features of a table are read back**, whatever follows them. -/
theorem agree (hreg : ctx.registries = .standard) (hlimit : ctx.elementLimit = none)
    {t : TableFeatures} (h : t.WellFormed) (hlt : t.size < 65536) (c : Cursor) (tail : Bytes) :
    Agree t.write (read ctx) c t.size tail t :=
  agree_of_readsBack (fun _ _ => Agree.field h.name_fits) (.of_unlimited hlimit _)
    (fun p hp => TableProperty.readsBack hreg hlimit (h.properties p hp)) hlt c tail

end TableFeatures
end OpenFlow
