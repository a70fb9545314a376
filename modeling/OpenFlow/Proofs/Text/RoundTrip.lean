import OpenFlow.Proofs.Wire.Agree
import OpenFlow.Wire.Text

/-!
# Text, written and read back

The UTF-8 form of a character, one to four bytes, is decoded to that character, and what
follows it is decoded as if it stood alone.  None of the bytes is zero unless the
character is, so a text without the zero character that fits its field comes back from
it.

Main statements:

* `Text.decode_encode`: decoding undoes encoding.
* `Text.read_write`: a text that fits its field is read back from it.
-/

namespace OpenFlow
namespace Text

/-! ## Decoding one character -/

section Steps

variable {b₀ b₁ b₂ b₃ : UInt8} {rest : Bytes}

theorem decode_one (hw : width b₀ = 1) :
    decode (b₀ :: rest) = Char.ofNat b₀.toNat :: decode rest := by
  rw [decode, hw]
  rfl

theorem decode_two (hw : width b₀ = 2) (h₁ : mayFollow b₀ b₁ = true) :
    decode (b₀ :: b₁ :: rest) = Char.ofNat (b₀.toNat % 32 * 64 + payload b₁) :: decode rest := by
  rw [decode, hw]
  simp only [if_pos h₁, if_true]

theorem decode_three (hw : width b₀ = 3) (h₁ : mayFollow b₀ b₁ = true)
    (h₂ : isContinuation b₂ = true) :
    decode (b₀ :: b₁ :: b₂ :: rest) =
      Char.ofNat ((b₀.toNat % 16 * 64 + payload b₁) * 64 + payload b₂) :: decode rest := by
  rw [decode, hw]
  simp [h₁, h₂]

theorem decode_four (hw : width b₀ = 4) (h₁ : mayFollow b₀ b₁ = true)
    (h₂ : isContinuation b₂ = true) (h₃ : isContinuation b₃ = true) :
    decode (b₀ :: b₁ :: b₂ :: b₃ :: rest) =
      Char.ofNat (((b₀.toNat % 8 * 64 + payload b₁) * 64 + payload b₂) * 64 + payload b₃) ::
        decode rest := by
  rw [decode, hw]
  simp [h₁, h₂, h₃]

end Steps

theorem width_of_toNat (b : UInt8) :
    width b = if b.toNat < 128 then 1
      else if 194 ≤ b.toNat ∧ b.toNat ≤ 223 then 2
      else if 224 ≤ b.toNat ∧ b.toNat ≤ 239 then 3
      else if 240 ≤ b.toNat ∧ b.toNat ≤ 244 then 4
      else 0 := by
  simp [width, UInt8.lt_iff_toNat_lt, UInt8.le_iff_toNat_le]

theorem isContinuation_iff {b : UInt8} :
    isContinuation b = true ↔ 128 ≤ b.toNat ∧ b.toNat ≤ 191 := by
  simp [isContinuation, UInt8.le_iff_toNat_le]

/-- A byte may follow a lead byte if it is a continuation byte, and in the narrower range of the
lead bytes that have one. -/
theorem mayFollow_iff {lead b : UInt8} :
    mayFollow lead b = true ↔ (128 ≤ b.toNat ∧ b.toNat ≤ 191) ∧
      (lead.toNat = 224 → 160 ≤ b.toNat) ∧ (lead.toNat = 237 → b.toNat ≤ 159) ∧
      (lead.toNat = 240 → 144 ≤ b.toNat) ∧ (lead.toNat = 244 → b.toNat ≤ 143) := by
  simp only [mayFollow, isContinuation, UInt8.le_iff_toNat_le, ← UInt8.toNat_inj,
    UInt8.reduceToNat]
  repeat' split
  all_goals
    simp only [Bool.and_eq_true, decide_eq_true_eq]
    omega

/-- The bytes that spell a character: a lead byte, which says how many they are, and continuation
bytes with the rest of the code point. -/
inductive Spells (c : Char) : Bytes → Prop
  | one {b₀ : UInt8} (hw : width b₀ = 1) (hc : Char.ofNat b₀.toNat = c) : Spells c [b₀]
  | two {b₀ b₁ : UInt8} (hw : width b₀ = 2) (h₁ : mayFollow b₀ b₁ = true)
      (hc : Char.ofNat (b₀.toNat % 32 * 64 + payload b₁) = c) : Spells c [b₀, b₁]
  | three {b₀ b₁ b₂ : UInt8} (hw : width b₀ = 3) (h₁ : mayFollow b₀ b₁ = true)
      (h₂ : isContinuation b₂ = true)
      (hc : Char.ofNat ((b₀.toNat % 16 * 64 + payload b₁) * 64 + payload b₂) = c) :
      Spells c [b₀, b₁, b₂]
  | four {b₀ b₁ b₂ b₃ : UInt8} (hw : width b₀ = 4) (h₁ : mayFollow b₀ b₁ = true)
      (h₂ : isContinuation b₂ = true) (h₃ : isContinuation b₃ = true)
      (hc : Char.ofNat (((b₀.toNat % 8 * 64 + payload b₁) * 64 + payload b₂) * 64 + payload b₃) = c) :
      Spells c [b₀, b₁, b₂, b₃]

/-- The UTF-8 form of a character spells it. -/
theorem spells_utf8EncodeChar (c : Char) : Spells c (String.utf8EncodeChar c) := by
  have hvalid : c.val.toNat < 0xd800 ∨ 0xdfff < c.val.toNat ∧ c.val.toNat < 0x110000 := c.valid
  have hofNat : ∀ n, n = c.val.toNat → Char.ofNat n = c := fun n hn => hn ▸ Char.ofNat_toNat c
  have hbyte : ∀ n, n < 256 → (UInt8.ofNat n).toNat = n := fun n hn =>
    UInt8.toNat_ofNat_of_lt' hn
  unfold String.utf8EncodeChar
  generalize c.val.toNat = n at hvalid hofNat
  dsimp only
  split
  · have h₀ := hbyte n (by omega)
    refine .one ?_ ?_
    · rw [width_of_toNat, h₀, if_pos (by omega)]
    · rw [h₀, hofNat n rfl]
  split
  · have h₀ := hbyte (n / 64 % 32 + 192) (by omega)
    have h₁ := hbyte (n % 64 + 128) (by omega)
    refine .two ?_ ?_ ?_
    · rw [width_of_toNat, h₀, if_neg (by omega), if_pos (by omega)]
    · exact mayFollow_iff.mpr (by omega)
    · rw [payload, h₀, h₁, hofNat _ (by omega)]
  split
  · have h₀ := hbyte (n / 4096 % 16 + 224) (by omega)
    have h₁ := hbyte (n / 64 % 64 + 128) (by omega)
    have h₂ := hbyte (n % 64 + 128) (by omega)
    refine .three ?_ ?_ ?_ ?_
    · rw [width_of_toNat, h₀, if_neg (by omega), if_neg (by omega), if_pos (by omega)]
    · exact mayFollow_iff.mpr (by omega)
    · exact isContinuation_iff.mpr (by omega)
    · rw [payload, payload, h₀, h₁, h₂, hofNat _ (by omega)]
  · have h₀ := hbyte (n / 262144 % 8 + 240) (by omega)
    have h₁ := hbyte (n / 4096 % 64 + 128) (by omega)
    have h₂ := hbyte (n / 64 % 64 + 128) (by omega)
    have h₃ := hbyte (n % 64 + 128) (by omega)
    refine .four ?_ ?_ ?_ ?_ ?_
    · rw [width_of_toNat, h₀, if_neg (by omega), if_neg (by omega), if_neg (by omega),
        if_pos (by omega)]
    · exact mayFollow_iff.mpr (by omega)
    · exact isContinuation_iff.mpr (by omega)
    · exact isContinuation_iff.mpr (by omega)
    · rw [payload, payload, payload, h₀, h₁, h₂, h₃, hofNat _ (by omega)]

/-- What spells a character is decoded to it, and what follows is decoded by itself. -/
theorem Spells.decode_append {c : Char} {bs : Bytes} (h : Spells c bs) (rest : Bytes) :
    decode (bs ++ rest) = c :: decode rest := by
  cases h with
  | one hw hc => rw [List.cons_append, List.nil_append, decode_one hw, hc]
  | two hw h₁ hc =>
    rw [List.cons_append, List.cons_append, List.nil_append, decode_two hw h₁, hc]
  | three hw h₁ h₂ hc =>
    rw [List.cons_append, List.cons_append, List.cons_append, List.nil_append,
      decode_three hw h₁ h₂, hc]
  | four hw h₁ h₂ h₃ hc =>
    rw [List.cons_append, List.cons_append, List.cons_append, List.cons_append, List.nil_append,
      decode_four hw h₁ h₂ h₃, hc]

/-- **The bytes of a character are decoded to it**, and what follows is decoded by itself. -/
theorem decode_utf8EncodeChar (c : Char) (rest : Bytes) :
    decode (String.utf8EncodeChar c ++ rest) = c :: decode rest :=
  (spells_utf8EncodeChar c).decode_append rest

/-- **Decoding undoes encoding.** -/
theorem decode_encode (s : String) : decode (encode s) = s.toList := by
  unfold encode
  induction s.toList with
  | nil => rfl
  | cons c cs ih => rw [List.flatMap_cons, decode_utf8EncodeChar, ih]

/-! ## Fields -/

/-- The bytes of a character are not zero unless it is the zero character. -/
theorem ne_zero_of_mem_utf8EncodeChar {c : Char} (hc : c ≠ '\x00') {b : UInt8}
    (hb : b ∈ String.utf8EncodeChar c) : b ≠ 0 := by
  have hn : c.val.toNat ≠ 0 := fun h => hc (Char.ext (UInt32.toNat_inj.mp h))
  have hbyte : ∀ n, n < 256 → n ≠ 0 → UInt8.ofNat n ≠ 0 := by
    intro n hlt hne hzero
    have htoNat := congrArg UInt8.toNat hzero
    rw [UInt8.toNat_ofNat_of_lt' hlt] at htoNat
    exact hne htoNat
  unfold String.utf8EncodeChar at hb
  generalize c.val.toNat = n at hb hn
  dsimp only at hb
  split at hb
  · obtain rfl := List.mem_singleton.mp hb
    exact hbyte n (by omega) hn
  split at hb
  · simp only [List.mem_cons, List.not_mem_nil, or_false] at hb
    rcases hb with rfl | rfl <;> exact hbyte _ (by omega) (by omega)
  split at hb
  · simp only [List.mem_cons, List.not_mem_nil, or_false] at hb
    rcases hb with rfl | rfl | rfl <;> exact hbyte _ (by omega) (by omega)
  · simp only [List.mem_cons, List.not_mem_nil, or_false] at hb
    rcases hb with rfl | rfl | rfl | rfl <;> exact hbyte _ (by omega) (by omega)

/-- A text that a field of a width holds in full: without a zero character, and of no more
bytes than the field has. -/
def Fits (width : Nat) (s : String) : Prop :=
  '\x00' ∉ s.toList ∧ (encode s).length ≤ width

/-- **A text that fits its field is read back from it.** -/
theorem read_write {width : Nat} {s : String} (h : Fits width s) : read (write width s) = s := by
  have hbytes : ∀ b ∈ encode s, (decide (b ≠ 0)) = true := by
    intro b hb
    obtain ⟨c, hc, hbc⟩ := List.mem_flatMap.mp hb
    exact decide_eq_true (ne_zero_of_mem_utf8EncodeChar (fun h0 => h.1 (h0 ▸ hc)) hbc)
  have hzeros : ∀ n, (Bytes.zeros n).takeWhile (fun b => decide (b ≠ 0)) = [] := by
    intro n
    cases n with
    | zero => rfl
    | succ n => rfl
  unfold read write
  rw [List.take_of_length_le h.2, List.takeWhile_append_of_pos hbytes, hzeros, List.append_nil,
    decode_encode, String.ofList_toList]

end Text

/-! ## At a cursor -/

instance (width : Nat) (s : String) : Writer.Uniform (Writer.text width s) :=
  inferInstanceAs (Writer.Uniform (Writer.bytes _))

namespace Agree

variable {width : Nat} {shortage : Shortage} {s : String} {c : Cursor} {tail : Bytes}

/-- A text in a field, which holds what can be read back from it. -/
theorem written (width : Nat) (shortage : Shortage) (s : String) (c : Cursor) (tail : Bytes) :
    Agree (Writer.text width s) (Reader.text width shortage) c width tail
      (Text.read (Text.write width s)) := by
  have hlen : (Text.write width s).length = width := Text.length_write width s
  have hfield := Agree.word hlen (rfl : Text.read (Text.write width s) = _) c tail
  refine ⟨_, Writer.encode_bytes _, hlen, fun hc => ?_⟩
  have hroom : width ≤ c.remaining := by
    rw [← Cursor.length_rest_eq_remaining, hc.rest_eq, List.length_append, hlen]
    exact Nat.le_add_right _ _
  unfold Reader.text
  rw [Reader.run_cursor_bind, if_pos hroom]
  exact hfield.run_eq (Writer.encode_bytes _) hc

/-- A text in a field that holds it. -/
theorem field (hs : Text.Fits width s) :
    Agree (Writer.text width s) (Reader.text width shortage) c width tail s := by
  have h := written width shortage s c tail
  rwa [Text.read_write hs] at h

protected theorem text {α : Type} {w : Writer} [Writer.Uniform w] {g : String → Reader α}
    {n : Nat} {a : α} (hs : Text.Fits width s) (h : Agree w (g s) (c.advance width) n tail a) :
    Agree (Writer.text width s ++ w) (Reader.text width shortage >>= g) c (width + n) tail a :=
  Agree.bind (fun _ => field hs) h

end Agree
end OpenFlow
