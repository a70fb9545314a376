import OpenFlow.Message.Header
import OpenFlow.Proofs.Wire.Agree

/-!
# Message headers, written and read back

A message is announced with its kind and its length, and refused if the length does not
fit its field.  What is announced is what reading the header finds.
-/

namespace OpenFlow
namespace MessageHeader

/-- The header that announces a message. -/
def announced (kind : MessageKind) (length : Nat) (xid : UInt32) : MessageHeader :=
  ⟨currentVersion, kind.code, UInt16.ofNat length, xid⟩

variable {what : String} {kind : MessageKind} {length : Nat} {xid : UInt32}

@[simp] theorem kind?_announced : (announced kind length xid).kind? = some kind :=
  MessageKind.ofCode?_code kind

instance (h : MessageHeader) : Writer.Uniform h.write :=
  inferInstanceAs (Writer.Uniform (Writer.u8 _ ++ Writer.u8 _ ++ Writer.u16 _ ++ Writer.u32 _))

theorem announce_of_lt (h : length < 65536) :
    announce what kind length xid = (announced kind length xid).write := by
  unfold announce fitLength
  rw [if_pos h]
  rfl

theorem announce_of_le (h : 65536 ≤ length) :
    announce what kind length xid = Writer.fail (.lengthOverflow what length) := by
  unfold announce fitLength
  rw [if_neg (Nat.not_lt.mpr h)]

instance (what : String) (kind : MessageKind) (length : Nat) (xid : UInt32) :
    Writer.Uniform (announce what kind length xid) := by
  by_cases h : length < 65536
  · rw [announce_of_lt h]
    infer_instance
  · rw [announce_of_le (Nat.le_of_not_lt h)]
    infer_instance

/-- A message that is written has a length that fits its field. -/
theorem lt_of_encode_announce {w : Writer} [Writer.Uniform w] {bs : Bytes}
    (h : (announce what kind length xid ++ w).encode = .ok bs) : length < 65536 := by
  by_cases hlt : length < 65536
  · exact hlt
  · obtain ⟨as, has, -⟩ := Writer.encode_append_eq_ok_iff.mp h
    rw [announce_of_le (Nat.le_of_not_lt hlt)] at has
    exact nomatch has

/-- **The header of a message is what was announced**, and it is passed. -/
theorem agree_announce {α : Type} {w : Writer} [Writer.Uniform w] {g : MessageHeader → Reader α}
    {c : Cursor} {n : Nat} {tail : Bytes} {a : α} (hle : size ≤ length) (hlt : length < 65536)
    (h : Agree w (g (announced kind length xid)) (c.advance size) n tail a) :
    Agree (announce what kind length xid ++ w) (read >>= g) c (size + n) tail a := by
  have hlength : ¬ (UInt16.ofNat length).toNat < size := by
    rw [UInt16.toNat_ofNat_of_lt' hlt]
    exact Nat.not_lt.mpr hle
  refine Agree.bind (fun tail => ?_) h
  rw [announce_of_lt hlt]
  refine Agree.of_append_skip ?_
  unfold write read
  simp only [Writer.append_assoc]
  refine Agree.of_size_eq (Agree.u8 (Agree.u8 (Agree.u16 (Agree.u32 (m := 0) ?_))))
  change Agree _ (if (UInt16.ofNat length).toNat < size then _ else _) _ _ _ _
  rw [if_neg hlength]
  exact Agree.pure _ _ tail

end MessageHeader
end OpenFlow
