import OpenFlow.Oxm.Field
import OpenFlow.Proofs.Oxm.Header
import OpenFlow.Proofs.Wire.Agree
import OpenFlow.Proofs.Wire.Yields

/-!
# Match fields, written and read back

The width of a payload decides the form of its value on both sides, so a value
that fits its width comes back from its bytes.  A field over a descriptor that the
catalog holds comes back whole, and its header raises no warning, if its code has the
seven bits that a header has room for.

Main definitions:

* `FieldCatalog.Holds`: a descriptor is the one of its type.
* `FieldCatalog.Finds`: it is the one that the headers of its fields are looked up to.
-/

namespace OpenFlow

namespace OxmValue

instance (v : OxmValue) : Writer.Uniform v.write :=
  inferInstanceAs (Writer.Uniform (Writer.bytes _))

/-- A value in the form of its width is read back from its bytes. -/
theorem ofBytes_toBytes {v : OxmValue} {n : Nat} (h : v.fits n) : ofBytes v.toBytes = v := by
  cases v with
  | u8 k => simp [ofBytes, toBytes, Bytes.value]
  | u16 k => simp [ofBytes, toBytes]
  | u32 k => simp [ofBytes, toBytes]
  | u64 k => simp [ofBytes, toBytes]
  | bytes bs =>
    simp [fits, isWordWidth] at h
    obtain ⟨hn, hw⟩ := h
    unfold ofBytes toBytes
    split <;> simp_all

end OxmValue

/-- A header word in front of a string of bytes is the one that was written there. -/
theorem OxmHeader.peek?_append (word : UInt32) (bs : Bytes) :
    peek? (Bytes.ofUInt32 word ++ bs) = some (ofWord word) := by
  obtain ⟨b₀, b₁, b₂, b₃, hbytes⟩ : ∃ b₀ b₁ b₂ b₃, Bytes.ofUInt32 word = [b₀, b₁, b₂, b₃] :=
    ⟨_, _, _, _, rfl⟩
  have hword : UInt32.ofNat (Bytes.value [b₀, b₁, b₂, b₃]) = word := by
    rw [← hbytes, Bytes.value_ofUInt32, UInt32.ofNat_toNat]
  rw [hbytes]
  exact congrArg (fun word => some (ofWord word)) hword

/-- A header in front of a string of bytes is in front of all that begins with them. -/
theorem OxmHeader.peek?_append_of_some {bs : Bytes} {header : OxmHeader}
    (h : peek? bs = some header) (region : Bytes) : peek? (bs ++ region) = some header := by
  rcases bs with _ | ⟨b₀, _ | ⟨b₁, _ | ⟨b₂, _ | ⟨b₃, bs⟩⟩⟩⟩
  case cons.cons.cons.cons => exact h
  all_goals exact nomatch h

/-- The first bytes of a string have the same header in front, if they cover it. -/
theorem OxmHeader.peek?_take {bs : Bytes} {n : Nat} (hn : size ≤ n) {header : OxmHeader}
    (h : peek? bs = some header) : peek? (bs.take n) = some header := by
  obtain ⟨k, rfl⟩ := Nat.exists_eq_add_of_le' hn
  rcases bs with _ | ⟨b₀, _ | ⟨b₁, _ | ⟨b₂, _ | ⟨b₃, bs⟩⟩⟩⟩
  case cons.cons.cons.cons => exact h
  all_goals exact nomatch h

/-- A header in front of a string of bytes has a field code of seven bits. -/
theorem OxmHeader.field_lt_of_peek? {bs : Bytes} {header : OxmHeader}
    (h : peek? bs = some header) : header.field < 128 := by
  rcases bs with _ | ⟨b₀, _ | ⟨b₁, _ | ⟨b₂, _ | ⟨b₃, bs⟩⟩⟩⟩
  case cons.cons.cons.cons => exact Option.some.inj h ▸ field_ofWord_lt _
  all_goals exact nomatch h

/-- A header that is in front of a string of bytes takes a part of them. -/
theorem OxmHeader.size_le_of_peek? {bs : Bytes} {header : OxmHeader}
    (h : peek? bs = some header) : size ≤ bs.length := by
  rcases bs with _ | ⟨b₀, _ | ⟨b₁, _ | ⟨b₂, _ | ⟨b₃, bs⟩⟩⟩⟩
  case cons.cons.cons.cons => exact Nat.le_add_left 4 bs.length
  all_goals exact nomatch h

theorem OxmHeader.length_lt_of_peek?_eq_none {bs : Bytes} (h : peek? bs = none) :
    bs.length < size := by
  rcases bs with _ | ⟨b₀, _ | ⟨b₁, _ | ⟨b₂, _ | ⟨b₃, bs⟩⟩⟩⟩
  case cons.cons.cons.cons => exact nomatch h
  all_goals exact Nat.le_of_ble_eq_true rfl

theorem OxmHeader.peek?_eq_none_of_length_lt {bs : Bytes} (h : bs.length < size) :
    peek? bs = none := by
  cases hpeek : peek? bs with
  | none => rfl
  | some header => exact absurd (size_le_of_peek? hpeek) (Nat.not_le_of_lt h)

/-- A header word that was read is the one of the header at the cursor. -/
theorem OxmHeader.peek?_of_run {c c' : Cursor} {word : UInt32} {w : Nat}
    (h : Reader.u32.run c = ⟨.ok word, c', w⟩) : peek? c.rest = some (ofWord word) := by
  obtain ⟨hsize, rfl, -⟩ := Reader.of_run_word h
  rw [← Cursor.length_rest_eq_remaining] at hsize
  generalize c.rest = ahead at hsize ⊢
  rcases ahead with _ | ⟨b₀, _ | ⟨b₁, _ | ⟨b₂, _ | ⟨b₃, ahead⟩⟩⟩⟩
  case cons.cons.cons.cons => rfl
  all_goals
    simp only [List.length_nil, List.length_cons] at hsize
    omega

/-- A header word that is there is read. -/
theorem OxmHeader.run_word_of_peek? {c : Cursor} {header : OxmHeader}
    (h : peek? c.rest = some header) :
    ∃ word, Reader.u32.run c = ⟨.ok word, c.advance size, 0⟩ ∧ ofWord word = header := by
  have hle : size ≤ c.remaining := c.length_rest_eq_remaining ▸ size_le_of_peek? h
  have hrun : Reader.u32.run c = _ := Reader.run_word_of_le _ hle
  exact ⟨_, hrun, Option.some.inj ((peek?_of_run hrun).symm.trans h)⟩

/-- A catalog holds a descriptor: it is the one that its own type is looked up to. -/
def FieldCatalog.Holds (catalog : FieldCatalog) (d : FieldDescriptor) : Prop :=
  catalog.lookup? d.oxmClass d.field = some d

/-- What is found in a catalog is held by it. -/
theorem FieldCatalog.holds_of_lookup? {catalog : FieldCatalog} {oxmClass : UInt16} {field : UInt8}
    {d : FieldDescriptor} (h : catalog.lookup? oxmClass field = some d) : catalog.Holds d := by
  have hkey : (d.oxmClass, d.field) = (oxmClass, field) := key_of_lookup? h
  rw [Prod.mk.injEq] at hkey
  unfold Holds
  rw [hkey.1, hkey.2, h]

/-- A catalog finds a descriptor from the wire: it holds it, and a header keeps its code whole. -/
structure FieldCatalog.Finds (catalog : FieldCatalog) (d : FieldDescriptor) : Prop where
  holds : catalog.Holds d
  field_lt : d.field < 128

/-- What a header on the wire is looked up to is found from the wire. -/
theorem FieldCatalog.finds_of_peek? {catalog : FieldCatalog} {bs : Bytes} {header : OxmHeader}
    {d : FieldDescriptor} (hpeek : OxmHeader.peek? bs = some header)
    (h : catalog.lookup? header.oxmClass header.field = some d) : catalog.Finds d where
  holds := holds_of_lookup? h
  field_lt := by
    have hkey : (d.oxmClass, d.field) = (header.oxmClass, header.field) := key_of_lookup? h
    rw [(Prod.mk.inj hkey).2]
    exact OxmHeader.field_lt_of_peek? hpeek

namespace OxmField

instance (f : OxmField) : Writer.Uniform f.writeMask := by
  unfold writeMask
  cases f.mask <;> infer_instance

instance (f : OxmField) : Writer.Uniform f.write :=
  inferInstanceAs (Writer.Uniform (Writer.u32 _ ++ f.value.write ++ f.writeMask))

/-- The header of a field unpacks to what it was packed from, if it keeps the code whole. -/
theorem ofWord_word_header {f : OxmField} (h : f.descriptor.field < 128) :
    OxmHeader.ofWord f.header.word = f.header :=
  OxmHeader.ofWord_word_of_lt h

/-- A value or a mask of its own width. -/
theorem agree_payload (d : FieldDescriptor) {v : OxmValue} (h : v.fits d.width.toNat) (c : Cursor)
    (tail : Bytes) : Agree v.write (readPayload d) c d.width.toNat tail ⟨v, h⟩ := by
  have hlen : v.toBytes.length = d.width.toNat := by
    rw [OxmValue.length_toBytes, OxmValue.length_of_fits h]
  have hmap := Agree.map (g := fun raw : { bs : Bytes // bs.length = d.width.toNat } =>
    (⟨.ofBytes raw.val, by simpa [raw.property] using OxmValue.fits_ofBytes raw.val⟩ :
      { v : OxmValue // v.fits d.width.toNat })) (Agree.exactly hlen c tail)
  have hv : OxmValue.ofBytes v.toBytes = v := OxmValue.ofBytes_toBytes h
  simp only [hv] at hmap
  exact hmap

/-- What follows the header of a field. -/
theorem agree_body (f : OxmField) (c : Cursor) (tail : Bytes) :
    Agree (f.value.write ++ f.writeMask) (readBody f.descriptor f.hasMask) c
      (f.width * OxmHeader.copiesOf f.hasMask) tail f := by
  obtain ⟨d, v, mask, hv, hm⟩ := f
  cases mask with
  | none =>
    refine Agree.of_size_eq (Agree.bind (agree_payload d hv c) (Agree.pure _ _ tail)) ?_
    exact (Nat.mul_one _).symm
  | some mask =>
    refine Agree.of_size_eq (Agree.bind (agree_payload d hv c)
      (Agree.map (agree_payload d hm _ tail))) ?_
    exact (Nat.mul_two _).symm

/-- A field is written in as many bytes as its size says. -/
theorem spans_write (f : OxmField) : Writer.Spans f.write f.size := by
  unfold write
  rw [Writer.append_assoc]
  exact Writer.Spans.append (Writer.Spans.u32 _)
    (agree_body f (Cursor.start []) []).spans

/-- The header of a field stands in front of its wire form. -/
theorem peek?_of_encode {f : OxmField} (hfield : f.descriptor.field < 128) {w : Writer}
    [Writer.Uniform w] {bs : Bytes} (h : (f.write ++ w).encode = .ok bs) :
    OxmHeader.peek? bs = some f.header := by
  unfold write at h
  rw [Writer.append_assoc, Writer.append_assoc] at h
  obtain ⟨as, has, cs, -, rfl⟩ := Writer.encode_append_eq_ok_iff.mp h
  rw [Writer.encode_u32] at has
  rw [← Except.ok.inj has, OxmHeader.peek?_append, ofWord_word_header hfield]

/-- The length a field declares is the one its descriptor gives. -/
theorem lengthAgrees_header (f : OxmField) : lengthAgrees f.header f.descriptor = true := by
  unfold lengthAgrees header OxmHeader.ofDescriptor
  rw [beq_self_eq_true, Bool.true_or]

/-- **A field over a descriptor of the catalog is read back from its own bytes.** -/
theorem agree (catalog : FieldCatalog) (f : OxmField) (h : catalog.Finds f.descriptor)
    (c : Cursor) (tail : Bytes) : Agree f.write (read catalog) c f.size tail f := by
  unfold write read
  rw [Writer.append_assoc]
  refine Agree.u32 ?_
  have hlookup : catalog.lookup? f.header.oxmClass f.header.field = some f.descriptor :=
    h.holds
  rw [ofWord_word_header h.field_lt]
  simp only [hlookup, lengthAgrees_header]
  exact agree_body f _ tail

/-- **A field of an unknown type is refused**, behind its header. -/
theorem run_read_of_lookup?_none {catalog : FieldCatalog} {c : Cursor} {header : OxmHeader}
    (hpeek : OxmHeader.peek? c.rest = some header)
    (h : catalog.lookup? header.oxmClass header.field = none) :
    (read catalog).run c = ⟨.error (.unknownFieldType header.oxmClass header.field),
      c.advance OxmHeader.size, 0⟩ := by
  obtain ⟨word, hword, rfl⟩ := OxmHeader.run_word_of_peek? hpeek
  unfold read
  rw [Reader.run_bind_of_quiet hword]
  simp only [h]
  rfl

end OxmField

/-! ## Fields of the basic class -/

/-- The catalog of the basic class holds the descriptor of every field type of it. -/
theorem FieldCatalog.holds_basic (t : FieldType) : FieldCatalog.basic.Holds t.descriptor := by
  cases t <;> rfl

/-- A field of one of the basic types. -/
def OxmField.IsBasic (f : OxmField) : Prop := ∃ t : FieldType, f.descriptor = t.descriptor

/-- A catalog that holds all basic types finds that of every basic field. -/
theorem OxmField.IsBasic.finds {catalog : FieldCatalog}
    (hbasic : ∀ t : FieldType, catalog.Holds t.descriptor) {f : OxmField} (h : f.IsBasic) :
    catalog.Finds f.descriptor := by
  obtain ⟨t, ht⟩ := h
  rw [ht]
  exact ⟨hbasic t, t.field_descriptor_lt⟩

/-- Looking at a header word changes nothing for a reader of four bytes or more. -/
theorem Agree.peek {α : Type} {w : Writer} {g : OxmHeader → Reader α} {c : Cursor} {n : Nat}
    {tail : Bytes} {a : α} (hw : Writer.Spans w n) (hn : 4 ≤ n)
    (h : ∀ header, Agree w (g header) c n tail a) : Agree w (OxmHeader.peek >>= g) c n tail a := by
  obtain ⟨bs, hbs, hlen⟩ := hw
  refine ⟨bs, hbs, hlen, fun hc => ?_⟩
  have hpeek : ∃ header, OxmHeader.peek.run c = ⟨.ok header, c, 0⟩ := by
    have hrest := hc.rest_eq
    rcases bs with _ | ⟨b₀, _ | ⟨b₁, _ | ⟨b₂, _ | ⟨b₃, bs⟩⟩⟩⟩
    case cons.cons.cons.cons =>
      refine ⟨OxmHeader.ofWord (UInt32.ofNat (Bytes.value [b₀, b₁, b₂, b₃])), ?_⟩
      unfold OxmHeader.peek
      rw [Reader.run_cursor_bind, hrest]
      rfl
    all_goals
      simp only [List.length_nil, List.length_cons] at hlen
      omega
  obtain ⟨header, hheader⟩ := hpeek
  rw [Reader.run_bind_of_quiet hheader]
  exact (h header).run_eq hbs hc

end OpenFlow
