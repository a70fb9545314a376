import OpenFlow.Hello.Wire
import OpenFlow.Proofs.Element.Lawful
import OpenFlow.Proofs.Message.Header

/-!
# Hello messages, written and read back

A version bitmap has as many words as its length leaves room for.

Main statements:

* `HelloElement.readsBack`: a well-formed element is read back.
* `Hello.agree`: so is a hello of well-formed elements.
-/

namespace OpenFlow

namespace HelloElement

/-! ## What is written -/

instance (e : HelloElement) : Writer.Uniform e.writeBody := by
  cases e <;> unfold writeBody <;> infer_instance

theorem commonHeaderSize_le_length (e : HelloElement) :
    Element.commonHeaderSize ≤ e.length := by
  cases e with
  | versionBitmap bitmaps => exact Nat.le_add_right _ _
  | unknown code length body => exact Nat.le_add_right _ _

/-- The words of a version bitmap, read by their number. -/
theorem agree_bitmaps (bitmaps : List UInt32) (c : Cursor) (tail : Bytes) :
    Agree (Writer.each Writer.u32 bitmaps) (Reader.times Reader.u32 bitmaps.length) c
      (4 * bitmaps.length) tail bitmaps :=
  Agree.times (fun _ _ c tail => Agree.word (Bytes.length_ofUInt32 _) (by simp) c tail) c tail

/-- What follows the header of an element fills the length that it declares. -/
theorem spans_writeBody (e : HelloElement) :
    Writer.Spans e.writeBody (e.length - Element.commonHeaderSize) := by
  cases e with
  | versionBitmap bitmaps =>
    exact (agree_bitmaps bitmaps (Cursor.start []) []).spans.of_size_eq
      (Nat.add_sub_cancel_left _ _).symm
  | unknown code length body => exact Writer.Spans.bytes (Nat.add_sub_cancel_left _ _).symm

instance : Element.Lawful HelloElement where
  write_eq e := ⟨e.writeBody, inferInstance, rfl⟩
  headerSize_le_length := commonHeaderSize_le_length
  spans_write {e} h :=
    Element.spans_write_of_body h (commonHeaderSize_le_length e) (spans_writeBody e)

/-! ## What is read back -/

/-- An element that its wire form determines: one of an unknown code has the length that it
declares. -/
def WellFormed : HelloElement → Prop
  | versionBitmap _ => True
  | unknown code length body =>
    types.lookup? code = none ∧ length.toNat = Element.commonHeaderSize + body.length

variable {ctx : Context}

/-- A well-formed element is read like the blank of its type, where its type is known. -/
theorem sameForm {e : HelloElement} (hknown : Element.KnowsType ctx e) (h : e.WellFormed) :
    Element.SameForm ctx e := by
  intro declared
  have htypes : Element.registry? Registries.standard = some types := rfl
  rw [hknown]
  cases e with
  | versionBitmap bitmaps =>
    rw [Element.blank_of_lookup htypes rfl]
    rfl
  | unknown code length body =>
    rw [show Element.code (unknown code length body) = code from rfl,
      Element.blank_of_lookup_none htypes h.1]
    rfl

/-- An element of an unknown code has the length that it declares. -/
def KeepsLength : HelloElement → Prop
  | versionBitmap _ => True
  | unknown _ length body => length.toNat = Element.commonHeaderSize + body.length

theorem WellFormed.keepsLength {e : HelloElement} (h : e.WellFormed) : e.KeepsLength := by
  cases e with
  | versionBitmap bitmaps => trivial
  | unknown code length body => exact h.2

/-- What follows the header of an element. -/
theorem agree_body {e : HelloElement} (h : e.KeepsLength) (hlt : e.length < 65536) (c : Cursor) :
    Agree e.writeBody (readBody (UInt16.ofNat e.length) e) c
      (e.length - Element.commonHeaderSize) [] e := by
  cases e with
  | versionBitmap bitmaps =>
    have hcount : ((UInt16.ofNat (versionBitmap bitmaps).length).toNat -
        Element.commonHeaderSize) / 4 = bitmaps.length := by
      rw [UInt16.toNat_ofNat_of_lt' hlt]
      change (4 + 4 * bitmaps.length - 4) / 4 = bitmaps.length
      omega
    unfold readBody
    simp only [hcount]
    exact Agree.of_size_eq (Agree.map (agree_bitmaps bitmaps c []))
      (Nat.add_sub_cancel_left _ _).symm
  | unknown code length body =>
    rw [show UInt16.ofNat (unknown code length body).length = length from
      Element.ofNat_length h]
    exact Agree.of_size_eq (Agree.map (Agree.rest body c)) (Nat.add_sub_cancel_left _ _).symm

/-- An element is read back if it is read like its blank and has the length that it declares. -/
theorem readsBack_of_sameForm {e : HelloElement} (hform : Element.SameForm ctx e)
    (h : e.KeepsLength) : Element.ReadsBack ctx e := by
  have hread : Element.read ctx e = Element.readHeader >>= fun x => readBody x.2 e := rfl
  exact Element.ReadsBack.of_agree_nil rfl hform hread fun hlt c => agree_body h hlt c

/-- **A well-formed element is read back.** -/
theorem readsBack (hreg : ctx.registries = .standard) {e : HelloElement} (h : e.WellFormed) :
    Element.ReadsBack ctx e :=
  readsBack_of_sameForm (sameForm (Element.knowsType_of_standard hreg e) h) h.keepsLength

end HelloElement

namespace Hello

instance (h : Hello) : Writer.Uniform h.write :=
  inferInstanceAs (Writer.Uniform (MessageHeader.announce _ _ _ _
    ++ Element.writeList h.elements))

variable {ctx : Context}

/-- A hello is read back if its elements are, and if as many are allowed. -/
theorem agree_of_readsBack {h : Hello} (hlimit : ctx.Allows h.elements.length)
    (helements : ∀ e ∈ h.elements, Element.ReadsBack ctx e) (hlt : h.size < 65536) (c : Cursor)
    (tail : Bytes) : Agree h.write (read ctx) c h.size tail h := by
  unfold write read
  refine MessageHeader.agree_announce (Nat.le_add_right _ _) hlt ?_
  rw [MessageHeader.kind?_announced, if_pos rfl]
  exact Agree.map (Element.agree_list_left hlimit helements hlt _ tail)

/-- **A hello of well-formed elements is read back**, whatever follows it. -/
theorem agree (hreg : ctx.registries = .standard) (hlimit : ctx.elementLimit = none)
    {h : Hello} (hes : ∀ e ∈ h.elements, e.WellFormed) (hlt : h.size < 65536) (c : Cursor)
    (tail : Bytes) : Agree h.write (read ctx) c h.size tail h :=
  agree_of_readsBack (.of_unlimited hlimit _) (fun e he => HelloElement.readsBack hreg (hes e he))
    hlt c tail

end Hello
end OpenFlow
