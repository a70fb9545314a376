import OpenFlow.Oxm.Header

/-!
# The header word of a match field, as a number

The four parts of a header word stand side by side and do not overlap, so the word
is a sum: the class counts `65536`, the field code `512`, the mask bit `256` and
the length one.  Packing and unpacking are read off this sum.

Main statements:

* `OxmHeader.toNat_word`: the sum.
* `OxmHeader.ofWord_word`: unpacking a packed header gives the header back, with
  the field code cut to seven bits.
-/

namespace OpenFlow

/-! ## The low seven bits -/

theorem and_seven_bits (n : Nat) : n &&& 127 = n % 128 := Nat.and_two_pow_sub_one_eq_mod n 7

/-- A field code cut to seven bits. -/
theorem toNat_and_seven_bits (f : UInt8) : (f &&& 0x7f).toNat = f.toNat % 128 := by
  rw [UInt8.toNat_and]
  exact and_seven_bits f.toNat

/-! ## Bit eight -/

/-- Setting bit 8 of a number where it is clear adds its weight. -/
theorem or_bit_eight {n : Nat} (h : n % 512 < 256) : n ||| 256 = n + 256 := by
  have hsplit : n = (n / 512) <<< 9 ||| n % 512 := by
    rw [← Nat.shiftLeft_add_eq_or_of_lt (by omega), Nat.shiftLeft_eq]
    omega
  have hlow : 1 <<< 8 + n % 512 = 1 <<< 8 ||| n % 512 := Nat.shiftLeft_add_eq_or_of_lt h 1
  rw [Nat.shiftLeft_eq, Nat.one_mul] at hlow
  calc n ||| 256 = ((n / 512) <<< 9 ||| n % 512) ||| 256 := by rw [← hsplit]
    _ = (n / 512) <<< 9 ||| (256 + n % 512) := by
      rw [Nat.or_assoc, Nat.or_comm (n % 512), hlow]
    _ = n + 256 := by
      rw [← Nat.shiftLeft_add_eq_or_of_lt (by omega), Nat.shiftLeft_eq]
      omega

/-- Clearing bit 8 of a 64-bit number where it is clear changes nothing. -/
theorem and_not_bit_eight {n : Nat} (h : n % 512 < 256) (hn : n < UInt64.size) :
    n &&& 18446744073709551359 = n := by
  have hm : ∀ i < 64, i ≠ 8 → Nat.testBit 18446744073709551359 i = true := by decide
  apply Nat.eq_of_testBit_eq
  intro i
  rw [Nat.testBit_and]
  by_cases hi : i < 64
  · by_cases h8 : i = 8
    · subst h8
      rw [Nat.testBit_eq_decide_div_mod_eq, decide_eq_false (by omega), Bool.false_and]
    · rw [hm i hi h8, Bool.and_true]
  · have hpow : UInt64.size ≤ 2 ^ i :=
      Nat.pow_le_pow_right (n := 2) (i := 64) (by decide) (Nat.le_of_not_lt hi)
    rw [Nat.testBit_lt_two_pow (Nat.lt_of_lt_of_le hn hpow), Bool.false_and]

theorem toNat_setBit_eight {x : UInt64} (h : x.toNat % 512 < 256) (on : Bool) :
    (setBit 8 x on).toNat = x.toNat + if on then 256 else 0 := by
  cases on with
  | true =>
    have hor := or_bit_eight h
    simpa [setBit] using hor
  | false =>
    have hand := and_not_bit_eight h x.toNat_lt
    simpa [setBit] using hand

namespace OxmHeader

/-! ## Packing -/

/-- A word that is shifted and loses no bit is shifted as a number. -/
theorem toNat_shiftLeft_of_lt {x s : UInt64} (hs : s.toNat < 64)
    (h : x.toNat <<< s.toNat < UInt64.size) : (x <<< s).toNat = x.toNat <<< s.toNat := by
  rw [UInt64.toNat_shiftLeft, Nat.mod_eq_of_lt hs]
  exact Nat.mod_eq_of_lt h

/-- The fields of a header word beside the mask bit, as one number. -/
theorem toNat_packed (k : UInt16) (f : UInt8) (l : UInt8) :
    (k.toUInt64 <<< 16 ||| (f &&& 0x7f).toUInt64 <<< 9 ||| l.toUInt64).toNat =
      k.toNat * 65536 + f.toNat % 128 * 512 + l.toNat := by
  have hk := k.toNat_lt
  have hl := l.toNat_lt
  have hf := toNat_and_seven_bits f
  have hclass : (k.toUInt64 <<< 16).toNat = k.toNat <<< 16 := by
    have hfits : k.toNat <<< 16 < 18446744073709551616 := by
      rw [Nat.shiftLeft_eq]
      omega
    exact toNat_shiftLeft_of_lt (by decide) hfits
  have hcode : ((f &&& 0x7f).toUInt64 <<< 9).toNat = (f &&& 0x7f).toNat <<< 9 := by
    have hfits : (f &&& 0x7f).toNat <<< 9 < 18446744073709551616 := by
      rw [Nat.shiftLeft_eq]
      omega
    exact toNat_shiftLeft_of_lt (by decide) hfits
  have hlow : (f.toNat % 128) <<< 9 + l.toNat = (f.toNat % 128) <<< 9 ||| l.toNat :=
    Nat.shiftLeft_add_eq_or_of_lt (by omega) _
  have hhigh : k.toNat <<< 16 + ((f.toNat % 128) <<< 9 + l.toNat) =
      k.toNat <<< 16 ||| ((f.toNat % 128) <<< 9 + l.toNat) :=
    Nat.shiftLeft_add_eq_or_of_lt (by rw [Nat.shiftLeft_eq]; omega) _
  rw [UInt64.toNat_or, UInt64.toNat_or, hclass, hcode, hf, UInt8.toNat_toUInt64, Nat.or_assoc,
    ← hlow, ← hhigh, Nat.shiftLeft_eq, Nat.shiftLeft_eq, Nat.add_assoc]

/-- The number a header packs into. -/
theorem toNat_word (h : OxmHeader) :
    h.word.toNat = h.oxmClass.toNat * 65536 + h.field.toNat % 128 * 512
      + (if h.hasMask then 256 else 0) + h.length.toNat := by
  have hk := h.oxmClass.toNat_lt
  have hl := h.length.toNat_lt
  have hp := toNat_packed h.oxmClass h.field h.length
  unfold word
  rw [UInt64.toNat_toUInt32, toNat_setBit_eight (by omega), hp]
  split <;> omega

/-! ## Unpacking -/

theorem toNat_ofWord_oxmClass (w : UInt32) : (ofWord w).oxmClass.toNat = w.toNat / 65536 := by
  have hw := w.toNat_lt
  simp [ofWord, Nat.shiftRight_eq_div_pow]
  omega

theorem toNat_ofWord_field (w : UInt32) : (ofWord w).field.toNat = w.toNat / 512 % 128 := by
  simp [ofWord, Nat.shiftRight_eq_div_pow, and_seven_bits]

/-- An unpacked field code has seven bits. -/
theorem field_ofWord_lt (w : UInt32) : (ofWord w).field < 128 := by
  rw [UInt8.lt_iff_toNat_lt, toNat_ofWord_field]
  exact Nat.mod_lt _ (by decide)

theorem hasMask_ofWord (w : UInt32) : (ofWord w).hasMask = decide (w.toNat / 256 % 2 = 1) := by
  unfold ofWord testBit
  rw [Bool.eq_iff_iff, beq_iff_eq, ← UInt64.toNat_inj]
  simp [Nat.shiftRight_eq_div_pow, Nat.and_one_is_mod]

theorem toNat_ofWord_length (w : UInt32) : (ofWord w).length.toNat = w.toNat % 256 := by
  have hand : w.toNat % 256 &&& 255 = w.toNat % 256 % 256 := Nat.and_two_pow_sub_one_eq_mod _ 8
  simp [ofWord, hand]

theorem oxmClass_ofWord_word (h : OxmHeader) : (ofWord h.word).oxmClass = h.oxmClass := by
  have hl := h.length.toNat_lt
  apply UInt16.toNat_inj.mp
  rw [toNat_ofWord_oxmClass, toNat_word]
  split <;> omega

theorem field_ofWord_word (h : OxmHeader) : (ofWord h.word).field = h.field &&& 0x7f := by
  have hl := h.length.toNat_lt
  apply UInt8.toNat_inj.mp
  rw [toNat_ofWord_field, toNat_word, toNat_and_seven_bits]
  split <;> omega

theorem hasMask_ofWord_word (h : OxmHeader) : (ofWord h.word).hasMask = h.hasMask := by
  have hl := h.length.toNat_lt
  rw [hasMask_ofWord, toNat_word]
  cases h.hasMask with
  | true =>
    rw [if_pos rfl]
    exact decide_eq_true (by omega)
  | false =>
    rw [if_neg Bool.false_ne_true]
    exact decide_eq_false (by omega)

theorem length_ofWord_word (h : OxmHeader) : (ofWord h.word).length = h.length := by
  have hl := h.length.toNat_lt
  apply UInt8.toNat_inj.mp
  rw [toNat_ofWord_length, toNat_word]
  split <;> omega

/-- **Unpacking a packed header gives it back, with seven bits of its field code.** -/
theorem ofWord_word (h : OxmHeader) : ofWord h.word = { h with field := h.field &&& 0x7f } := by
  change OxmHeader.mk (ofWord h.word).oxmClass (ofWord h.word).field (ofWord h.word).hasMask
    (ofWord h.word).length = _
  rw [oxmClass_ofWord_word, field_ofWord_word, hasMask_ofWord_word, length_ofWord_word]

/-- A header whose field code has seven bits is given back whole. -/
theorem ofWord_word_of_lt {h : OxmHeader} (hf : h.field < 128) : ofWord h.word = h := by
  have hlt : h.field.toNat < 128 := UInt8.lt_iff_toNat_lt.mp hf
  have hfield : h.field &&& 0x7f = h.field := by
    apply UInt8.toNat_inj.mp
    rw [toNat_and_seven_bits, Nat.mod_eq_of_lt hlt]
  rw [ofWord_word, hfield]

end OxmHeader
end OpenFlow
