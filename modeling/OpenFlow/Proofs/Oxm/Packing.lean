import Mathlib.Data.Nat.Bitwise
import Mathlib.Logic.Equiv.Defs
import OpenFlow.Proofs.Oxm.Header

/-!
# Header words and headers, one for one

The components of a header each have their own bits of the word: a component that is shifted to its
place is a multiple of a power of two that all components behind it are smaller than.  So no bit
belongs to two of them, the word is what they make together, and no bit of a word is left over.
Packing is one for one between the headers whose field code has seven bits and the words.

Main definitions:

* `OxmHeader.components`: the components of a header, each in its place.
* `OxmHeader.wordEquiv`: packing and unpacking, as an equivalence.

Main statements:

* `OxmHeader.word_ofWord`: packing an unpacked word gives the word back.
* `OxmHeader.pairwise_components`: no two components share a bit.
* `OxmHeader.word_eq_foldr_components`: a word is made of its components.
* `OxmHeader.bijective_word`: all of it.
-/

namespace OpenFlow

/-! ## Numbers that stand above others -/

/-- A number that is shifted above another one shares no bit with it. -/
theorem shiftLeft_and_of_lt {b k : Nat} (hb : b < 2 ^ k) (a : Nat) : a <<< k &&& b = 0 := by
  apply Nat.eq_of_testBit_eq
  intro i
  rw [Nat.testBit_and, Nat.testBit_shiftLeft, Nat.zero_testBit]
  by_cases hi : k ≤ i
  · have hpow : 2 ^ k ≤ 2 ^ i := Nat.pow_le_pow_right (by decide) hi
    rw [Nat.testBit_lt_two_pow (Nat.lt_of_lt_of_le hb hpow), Bool.and_false]
  · rw [decide_eq_false hi, Bool.false_and, Bool.false_and]

namespace OxmHeader

/-! ## Unpacking, then packing -/

/-- **Packing an unpacked word gives the word back.** -/
theorem word_ofWord (w : UInt32) : (ofWord w).word = w := by
  apply UInt32.toNat_inj.mp
  rw [toNat_word, toNat_ofWord_oxmClass, toNat_ofWord_field, hasMask_ofWord, toNat_ofWord_length]
  simp only [decide_eq_true_eq]
  split <;> omega

theorem field_ofWord_le (w : UInt32) : (ofWord w).field ≤ 127 :=
  UInt8.le_iff_toNat_le.mpr (Nat.le_of_lt_succ (UInt8.lt_iff_toNat_lt.mp (field_ofWord_lt w)))

/-- The low seven bits of a field code, as a remainder. -/
theorem and_seven_bits_eq_mod (f : UInt8) : f &&& 0x7f = f % 128 := by
  apply UInt8.toNat_inj.mp
  rw [toNat_and_seven_bits, UInt8.toNat_mod]
  rfl

/-- **Packing and unpacking**, between the headers whose field code has seven bits and the
words. -/
def wordEquiv : { h : OxmHeader // h.field ≤ 127 } ≃ UInt32 where
  toFun h := h.val.word
  invFun w := ⟨ofWord w, field_ofWord_le w⟩
  left_inv h := by
    have hlt : h.val.field < 128 :=
      UInt8.lt_iff_toNat_lt.mpr (Nat.lt_succ_of_le (UInt8.le_iff_toNat_le.mp h.property))
    exact Subtype.ext (ofWord_word_of_lt hlt)
  right_inv := word_ofWord

/-! ## The components in their places -/

/-- The components of a header from the high end, each in its place in the word. -/
def components (h : OxmHeader) : List UInt32 :=
  [h.oxmClass.toUInt32 <<< 16, (h.field &&& 0x7f).toUInt32 <<< 9, h.hasMask.toUInt32 <<< 8,
    h.length.toUInt32]

/-- The numbers that the components are, each shifted above what the next ones can reach. -/
theorem map_toNat_components (h : OxmHeader) : h.components.map UInt32.toNat =
    [h.oxmClass.toNat <<< 16, (h.field.toNat % 128) <<< 9, h.hasMask.toNat <<< 8,
      h.length.toNat] := by
  have hk := h.oxmClass.toNat_lt
  have hl := h.length.toNat_lt
  have hm : h.hasMask.toUInt32.toNat = h.hasMask.toNat := by
    cases h.hasMask <;> rfl
  have hmle := h.hasMask.toNat_le
  simp only [components, List.map_cons, List.map_nil, UInt32.toNat_shiftLeft, hm,
    UInt16.toNat_toUInt32, UInt8.toNat_toUInt32, toNat_and_seven_bits, UInt32.reduceToNat,
    Nat.reduceMod, Nat.shiftLeft_eq, List.cons.injEq, and_true]
  omega

/-- **No two components of a header share a bit.** -/
theorem pairwise_components (h : OxmHeader) :
    h.components.Pairwise fun x y => x &&& y = 0 := by
  have hl := h.length.toNat_lt
  have hmle := h.hasMask.toNat_le
  have hnumbers : (h.components.map UInt32.toNat).Pairwise fun m n => m &&& n = 0 := by
    rw [map_toNat_components]
    -- Each component is shifted by more bits than any behind it has.
    refine .cons ?_ (.cons ?_ (.cons ?_ (List.pairwise_singleton _ _)))
    all_goals
      intro n hn
      simp only [List.mem_cons, List.not_mem_nil, or_false] at hn
      exact shiftLeft_and_of_lt (by omega) _
  refine (List.pairwise_map.mp hnumbers).imp fun {x y} hxy => ?_
  exact UInt32.toNat_inj.mp (by rw [UInt32.toNat_and, hxy]; rfl)

/-- **A word is made of the components of its header**, and of nothing else. -/
theorem word_eq_foldr_components (h : OxmHeader) :
    h.word = h.components.foldr (· ||| ·) 0 := by
  have hm := h.hasMask.toNat_le
  have hl : h.length.toNat < 2 ^ 8 := h.length.toNat_lt
  have hmask : (if h.hasMask then 256 else 0) = h.hasMask.toNat <<< 8 := by
    cases h.hasMask <;> rfl
  -- What stands behind a component is smaller than the weight of its last bit, so the sum that the
  -- word is carries nothing over.
  apply UInt32.toNat_inj.mp
  calc h.word.toNat
    _ = h.oxmClass.toNat <<< 16 + ((h.field.toNat % 128) <<< 9 +
        (h.hasMask.toNat <<< 8 + h.length.toNat)) := by
      rw [toNat_word, hmask, Nat.shiftLeft_eq, Nat.shiftLeft_eq]
      omega
    _ = h.oxmClass.toNat <<< 16 ||| ((h.field.toNat % 128) <<< 9 |||
        (h.hasMask.toNat <<< 8 ||| h.length.toNat)) := by
      rw [Nat.shiftLeft_add_eq_or_of_lt (by omega), Nat.shiftLeft_add_eq_or_of_lt (by omega),
        Nat.shiftLeft_add_eq_or_of_lt hl]
    _ = (h.components.map UInt32.toNat).foldr (· ||| ·) 0 := by
      simp only [map_toNat_components, List.foldr_cons, List.foldr_nil, Nat.or_zero]
    _ = (h.components.foldr (· ||| ·) 0 : UInt32).toNat := by
      simp only [components, List.map_cons, List.map_nil, List.foldr_cons, List.foldr_nil,
        UInt32.toNat_or, UInt32.toNat_zero]

/-- **Packing headers into words is one for one.**  A word that is unpacked and packed again is the
same word, and its field code has seven bits.  A header that is packed and unpacked again has kept
all but the eighth bit of its field code, so headers with field codes of seven bits are packed into
the words one for one.  The components of a header share no bit of its word, and together they are
the word. -/
theorem bijective_word :
    (∀ w : UInt32, (ofWord w).word = w ∧ (ofWord w).field ≤ 127) ∧
    (∀ h : OxmHeader, ofWord h.word = { h with field := h.field % 128 }) ∧
    (Function.Bijective fun h : { h : OxmHeader // h.field ≤ 127 } => h.val.word) ∧
    ∀ h : OxmHeader, h.components.Pairwise (fun x y => x &&& y = 0) ∧
      h.word = h.components.foldr (· ||| ·) 0 := by
  refine ⟨fun w => ⟨word_ofWord w, field_ofWord_le w⟩, fun h => ?_, wordEquiv.bijective,
    fun h => ⟨pairwise_components h, word_eq_foldr_components h⟩⟩
  rw [ofWord_word, and_seven_bits_eq_mod]

example : word ⟨0x8000, 12, true, 4⟩ = 0x80001904 ∧
    ofWord 0x80001904 = ⟨0x8000, 12, true, 4⟩ := by decide

end OxmHeader
end OpenFlow
