import OpenFlow.Proofs.Oxm.Field

/-!
# What stands behind the header of a match field

The header of a field says which type it has and whether a mask follows.  All the rest is
in the bytes behind it, the payload: the value, and the mask if there is one.  A field is
its descriptor, whether it has a mask, and its payload, and every string of bytes of the
right length is the payload of a field.

The length in the header takes no part in this.  A field of a known type is read from its
payload behind a header of any length; all that a length can do is to raise a warning.

Main definitions:

* `OxmField.payload`, `OxmField.toBytes`: the payload and the wire form.
* `OxmField.declaring`: the wire form with another length in its header.

Main statements:

* `OxmField.exists_payload_eq`: bytes of the right length are a payload.
* `OxmField.run_read_payload`: a field is read from its payload, whatever length is declared.
* `OxmField.run_read_of_lt`: it is not read from a part of its payload.
-/

namespace OpenFlow

namespace OxmValue

/-- The value in the form of a string of bytes has these bytes. -/
theorem toBytes_ofBytes (bs : Bytes) : (ofBytes bs).toBytes = bs := by
  have hlt := Bytes.value_lt bs
  have hback := Bytes.bigEndian_value bs
  unfold ofBytes
  split
  case h_1 h =>
    rw [h] at hback
    exact hback
  case h_2 h =>
    rw [h] at hlt hback
    change Bytes.bigEndian 2 (UInt16.ofNat (Bytes.value bs)).toNat = bs
    rw [UInt16.toNat_ofNat_of_lt' hlt, hback]
  case h_3 h =>
    rw [h] at hlt hback
    change Bytes.bigEndian 4 (UInt32.ofNat (Bytes.value bs)).toNat = bs
    rw [UInt32.toNat_ofNat_of_lt' hlt, hback]
  case h_4 h =>
    rw [h] at hlt hback
    change Bytes.bigEndian 8 (UInt64.ofNat (Bytes.value bs)).toNat = bs
    rw [UInt64.toNat_ofNat_of_lt' hlt, hback]
  case h_5 => rfl

end OxmValue

namespace OxmField

/-! ## The payload -/

/-- The bytes of the value, and those of the mask if there is one. -/
def payload (f : OxmField) : Bytes := f.value.toBytes ++ f.mask.elim [] OxmValue.toBytes

/-- The bytes of the wire form. -/
def toBytes (f : OxmField) : Bytes := Bytes.ofUInt32 f.header.word ++ f.payload

theorem encode_payload (f : OxmField) : (f.value.write ++ f.writeMask).encode = .ok f.payload := by
  refine Writer.encode_append_of_ok (Writer.encode_bytes _) ?_
  unfold writeMask
  cases f.mask with
  | none => exact Writer.encode_skip
  | some mask => exact Writer.encode_bytes _

theorem encode_write (f : OxmField) : f.write.encode = .ok f.toBytes := by
  unfold write
  rw [Writer.append_assoc]
  exact Writer.encode_append_of_ok (Writer.encode_u32 _) f.encode_payload

theorem length_payload (f : OxmField) :
    f.payload.length = f.width * OxmHeader.copiesOf f.hasMask :=
  (agree_body f (Cursor.start []) []).spans.length_eq f.encode_payload

@[simp] theorem length_toBytes (f : OxmField) : f.toBytes.length = f.size :=
  (spans_write f).length_eq f.encode_write

/-- **Every string of bytes of the right length is the payload of a field.** -/
theorem exists_payload_eq (d : FieldDescriptor) (hasMask : Bool) {bs : Bytes}
    (h : bs.length = d.width.toNat * OxmHeader.copiesOf hasMask) :
    ∃ f : OxmField, f.descriptor = d ∧ f.hasMask = hasMask ∧ f.payload = bs := by
  cases hasMask with
  | false =>
    have hvalue : (OxmValue.ofBytes bs).fits d.width.toNat := by
      have hfits := OxmValue.fits_ofBytes bs
      rwa [h, OxmHeader.copiesOf, if_neg Bool.false_ne_true, Nat.mul_one] at hfits
    refine ⟨⟨d, .ofBytes bs, none, hvalue, rfl⟩, rfl, rfl, ?_⟩
    change (OxmValue.ofBytes bs).toBytes ++ [] = bs
    rw [List.append_nil, OxmValue.toBytes_ofBytes]
  | true =>
    have hlen : bs.length = d.width.toNat * 2 := h
    have hvalue : (OxmValue.ofBytes (bs.take d.width.toNat)).fits d.width.toNat := by
      have hfits := OxmValue.fits_ofBytes (bs.take d.width.toNat)
      rwa [List.length_take, Nat.min_eq_left (by omega)] at hfits
    have hmask : (OxmValue.ofBytes (bs.drop d.width.toNat)).fits d.width.toNat := by
      have hfits := OxmValue.fits_ofBytes (bs.drop d.width.toNat)
      rwa [List.length_drop, hlen, Nat.mul_two, Nat.add_sub_cancel] at hfits
    refine ⟨⟨d, _, some _, hvalue, hmask⟩, rfl, rfl, ?_⟩
    change (OxmValue.ofBytes _).toBytes ++ (OxmValue.ofBytes _).toBytes = bs
    rw [OxmValue.toBytes_ofBytes, OxmValue.toBytes_ofBytes, List.take_append_drop]

/-! ## Reading behind any header -/

section read

variable {catalog : FieldCatalog} {d : FieldDescriptor} {header : OxmHeader} {c : Cursor}

/-- Without a whole header no field is read. -/
theorem run_read_of_remaining_lt (catalog : FieldCatalog) (h : c.remaining < OxmHeader.size) :
    (read catalog).run c = ⟨.error (.truncatedInput .bytes), c, 0⟩ := by
  have hword : Reader.u32.run c = ⟨.error (.truncatedInput .bytes), c, 0⟩ :=
    Reader.run_bind_of_error (Reader.run_bind_of_error (Reader.run_exactly_of_lt h))
  exact Reader.run_bind_of_error hword

/-- Behind a header of a known type its type and its mask bit decide what is read.  All that its
length can do is to raise a warning. -/
theorem run_read_of_lookup?_some (hpeek : OxmHeader.peek? c.rest = some header)
    (hlookup : catalog.lookup? header.oxmClass header.field = some d) :
    (read catalog).run c =
      let body := (readBody d header.hasMask).run (c.advance OxmHeader.size)
      ⟨body.result, body.cursor, (if lengthAgrees header d then 0 else 1) + body.warnings⟩ := by
  obtain ⟨word, hword, rfl⟩ := OxmHeader.run_word_of_peek? hpeek
  unfold read
  rw [Reader.run_bind_of_quiet hword]
  simp only [hlookup]
  cases lengthAgrees (OxmHeader.ofWord word) d with
  | true =>
    simp only [Bool.not_true, if_true, Nat.zero_add]
    rfl
  | false =>
    have hwarn : Reader.warn.run (c.advance OxmHeader.size) =
        ⟨.ok (), c.advance OxmHeader.size, 1⟩ := rfl
    simp only [Bool.not_false, if_true, Reader.run_bind_of_ok hwarn]
    rfl

/-- **A field of a known type is read from its payload**, behind any header of this type that says
whether there is a mask.  A length that agrees neither with the payload nor with its double
raises a warning. -/
theorem run_read_payload {f : OxmField} {front tail : Bytes}
    (hfront : front.length = OxmHeader.size)
    (hpeek : OxmHeader.peek? front = some header)
    (hlookup : catalog.lookup? header.oxmClass header.field = some f.descriptor)
    (hmask : f.hasMask = header.hasMask) (hc : c.Faces (front ++ (f.payload ++ tail))) :
    (read catalog).run c =
      ⟨.ok f, c.advance f.size, if lengthAgrees header f.descriptor then 0 else 1⟩ := by
  have hahead : OxmHeader.peek? c.rest = some header := by
    rw [hc.rest_eq, OxmHeader.peek?_append_of_some hpeek]
  have hbehind : (c.advance OxmHeader.size).Faces (f.payload ++ tail) := hfront ▸ hc.advance
  have hbody : (readBody f.descriptor header.hasMask).run (c.advance OxmHeader.size) =
      ⟨.ok f, c.advance f.size, 0⟩ := by
    rw [← hmask, (agree_body f _ tail).run_eq f.encode_payload hbehind, Cursor.advance_advance]
    rfl
  rw [run_read_of_lookup?_some hahead hlookup, hbody]
  rfl

/-- A value of which not all bytes are there is not read. -/
theorem run_readPayload_of_lt (h : c.remaining < d.width.toNat) :
    (readPayload d).run c = ⟨.error (.truncatedInput .bytes), c, 0⟩ :=
  Reader.run_bind_of_error (Reader.run_exactly_of_lt h)

/-- What follows the header of a field is read as a whole, or it is want of input.  The cursor then
stands in front of the value, or of the mask, of which not all bytes are there. -/
theorem run_readBody_of_lt {hasMask : Bool}
    (h : c.remaining < d.width.toNat * OxmHeader.copiesOf hasMask) :
    (readBody d hasMask).run c = ⟨.error (.truncatedInput .bytes),
      if c.remaining < d.width.toNat then c else c.advance d.width.toNat, 0⟩ := by
  unfold readBody
  by_cases hvalue : c.remaining < d.width.toNat
  · rw [Reader.run_bind_of_error (run_readPayload_of_lt hvalue), if_pos hvalue]
  · have hexactly := Reader.run_exactly_of_le (Nat.le_of_not_lt hvalue)
    have hrun : (readPayload d).run c = ⟨.ok _, c.advance d.width.toNat, 0⟩ :=
      Reader.run_bind_of_quiet hexactly
    rw [Reader.run_bind_of_quiet hrun, if_neg hvalue]
    cases hasMask with
    | true =>
      have hmask : (c.advance d.width.toNat).remaining < d.width.toNat := by
        change c.size - (c.pos + d.width.toNat) < d.width.toNat
        change c.size - c.pos < d.width.toNat * 2 at h
        omega
      exact Reader.run_bind_of_error (run_readPayload_of_lt hmask)
    | false =>
      change c.remaining < d.width.toNat * 1 at h
      rw [Nat.mul_one] at h
      exact absurd h hvalue

/-- **A field of a known type whose payload is cut short is want of input**, and a length that does
not agree raises its warning all the same. -/
theorem run_read_of_lt (hpeek : OxmHeader.peek? c.rest = some header)
    (hlookup : catalog.lookup? header.oxmClass header.field = some d)
    (hshort : c.remaining < OxmHeader.size + d.width.toNat * OxmHeader.copiesOf header.hasMask) :
    (read catalog).run c = ⟨.error (.truncatedInput .bytes),
      if c.remaining < OxmHeader.size + d.width.toNat then c.advance OxmHeader.size
      else c.advance (OxmHeader.size + d.width.toNat),
      if lengthAgrees header d then 0 else 1⟩ := by
  have hfour : OxmHeader.size ≤ c.remaining :=
    c.length_rest_eq_remaining ▸ OxmHeader.size_le_of_peek? hpeek
  have hremaining : (c.advance OxmHeader.size).remaining = c.remaining - OxmHeader.size := by
    change c.size - (c.pos + OxmHeader.size) = c.size - c.pos - OxmHeader.size
    omega
  have hlast : (c.advance OxmHeader.size).remaining < d.width.toNat ↔
      c.remaining < OxmHeader.size + d.width.toNat := by omega
  rw [run_read_of_lookup?_some hpeek hlookup, run_readBody_of_lt (by omega)]
  simp only [hlast, Cursor.advance_advance, Nat.add_zero]

end read

end OxmField

/-! ## Another length in the header -/

/-- The same header with another length. -/
def OxmHeader.withLength (h : OxmHeader) (n : UInt8) : OxmHeader := { h with length := n }

/-- The length of a header is the last byte of its word. -/
theorem OxmHeader.ofUInt32_word_withLength (h : OxmHeader) (n : UInt8) :
    Bytes.ofUInt32 (h.withLength n).word = (Bytes.ofUInt32 h.word).set 3 n := by
  have hl := h.length.toNat_lt
  have hn := n.toNat_lt
  have hold := toNat_word h
  have hnew : (h.withLength n).word.toNat = h.oxmClass.toNat * 65536
      + h.field.toNat % 128 * 512 + (if h.hasMask then 256 else 0) + n.toNat := toNat_word _
  have hbit : (if h.hasMask then 256 else 0) % 256 = 0 := by split <;> rfl
  generalize (if h.hasMask then 256 else 0) = bit at hold hnew hbit
  have hhigh : h.word.toNat / 256 = (h.withLength n).word.toNat / 256 := by omega
  have hlast : UInt8.ofNat (h.withLength n).word.toNat = n := by
    apply UInt8.toNat_inj.mp
    rw [UInt8.toNat_ofNat']
    omega
  change Bytes.bigEndian 3 ((h.withLength n).word.toNat / 256) ++
    [UInt8.ofNat (h.withLength n).word.toNat] =
      (Bytes.bigEndian 3 (h.word.toNat / 256) ++ [_]).set 3 n
  rw [← hhigh, hlast]
  rfl

namespace OxmField

/-- The wire form with another length byte in its header, and nothing else changed. -/
def declaring (f : OxmField) (n : UInt8) : Bytes := f.toBytes.set 3 n

@[simp] theorem length_declaring (f : OxmField) (n : UInt8) : (f.declaring n).length = f.size := by
  rw [declaring, List.length_set, length_toBytes]

/-- The header of a field with another length. -/
theorem declaring_eq (f : OxmField) (n : UInt8) :
    f.declaring n = Bytes.ofUInt32 (f.header.withLength n).word ++ f.payload := by
  have hinside : 3 < (Bytes.ofUInt32 f.header.word).length := by
    rw [Bytes.length_ofUInt32]
    decide
  unfold declaring toBytes
  rw [List.set_append_left _ _ hinside, OxmHeader.ofUInt32_word_withLength]

/-- The header in front is that of the field, with the length that is declared, if it keeps the code
whole. -/
theorem peek?_word_header {f : OxmField} (h : f.descriptor.field < 128) (n : UInt8) :
    OxmHeader.peek? (Bytes.ofUInt32 (f.header.withLength n).word) =
      some (f.header.withLength n) := by
  have hpeek := OxmHeader.peek?_append (f.header.withLength n).word []
  rwa [List.append_nil, OxmHeader.ofWord_word_of_lt h] at hpeek

/-- The wire form is the one that declares the width of the descriptor. -/
theorem declaring_width (f : OxmField) : f.declaring f.descriptor.width = f.toBytes := by
  rw [declaring_eq]
  rfl

/-- The header of a field is in front of what is left of its wire form, if it is left. -/
theorem peek?_take_toBytes {f : OxmField} (h : f.descriptor.field < 128) {n : Nat}
    (hn : OxmHeader.size ≤ n) : OxmHeader.peek? (f.toBytes.take n) = some f.header :=
  OxmHeader.peek?_take hn
    (OxmHeader.peek?_append_of_some (peek?_word_header h f.descriptor.width) f.payload)

end OxmField
end OpenFlow
