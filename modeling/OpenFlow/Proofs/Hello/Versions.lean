import OpenFlow.Proofs.Element.RoundTrip

/-!
# The versions that a hello advertises

A version `v` has the bit `v % 32` of the word `v / 32` of a bitmap.  Two versions never share a
bit, so going through a list of versions and setting their bits marks these versions and no others,
whatever their order and however often one of them comes up.  A bitmap has a word for each of its
versions; a version behind its last word is not advertised, and an empty list leaves one word
without a bit.

What a hello advertises is a matter of its elements alone, and these are read back from its wire
form.

Main statements:

* `HelloElement.testBit_bitmapWord`: the bits of a word are those of the versions in it.
* `HelloElement.supports_supporting`: the bitmap of a list of versions advertises just these.
* `Hello.supports_of_decode_supporting`: so does a hello of such bitmaps that was sent and received.
-/

namespace OpenFlow

/-- A bit of a word of 32 bits, as a bit of its value. -/
theorem testBit_toUInt64 (word : UInt32) {k : Nat} (hk : k < 32) :
    testBit (UInt64.ofNat k) word.toUInt64 = word.toNat.testBit k := by
  have hsize : k < UInt64.size := Nat.lt_trans hk (by decide)
  have hmod : (UInt64.ofNat k).toNat % 64 = k := by
    rw [UInt64.toNat_ofNat_of_lt' hsize]
    omega
  rw [testBit, Bool.eq_iff_iff, beq_iff_eq, ← UInt64.toNat_inj, UInt64.toNat_and,
    UInt64.toNat_shiftRight, hmod, UInt32.toNat_toUInt64, Nat.testBit_eq_decide_div_mod_eq,
    decide_eq_true_eq, ← Nat.shiftRight_eq_div_pow]
  exact iff_of_eq (congrArg (· = 1) (Nat.and_one_is_mod _))

namespace HelloElement

/-! ## Words -/

/-- Setting the bit of a version in a word, if it belongs in this word. -/
theorem testBit_mark (word : UInt32) (v : UInt8) (i k : Nat) :
    (if v.toNat / 32 = i then word ||| (1 <<< UInt32.ofNat (v.toNat % 32)) else word).toNat.testBit
      k = true ↔ word.toNat.testBit k = true ∨ (v.toNat / 32 = i ∧ v.toNat % 32 = k) := by
  by_cases hi : v.toNat / 32 = i
  · have hlt : v.toNat % 32 < 32 := Nat.mod_lt _ (by decide)
    have hbit : (1 <<< UInt32.ofNat (v.toNat % 32) : UInt32).toNat = 2 ^ (v.toNat % 32) := by
      have hsize : v.toNat % 32 < UInt32.size := Nat.lt_trans hlt (by decide)
      have hpow : 2 ^ (v.toNat % 32) < 2 ^ 32 := Nat.pow_lt_pow_right (by decide) hlt
      rw [UInt32.toNat_shiftLeft, UInt32.toNat_ofNat_of_lt' hsize, Nat.mod_eq_of_lt hlt]
      change 1 <<< (v.toNat % 32) % 2 ^ 32 = _
      rw [Nat.one_shiftLeft, Nat.mod_eq_of_lt hpow]
    rw [if_pos hi, UInt32.toNat_or, Nat.testBit_or, hbit, Nat.testBit_two_pow]
    simp [hi]
  · simp [hi]

/-- **The bits of a word** are those of the versions that belong in it. -/
theorem testBit_bitmapWord (versions : List UInt8) (i k : Nat) :
    (bitmapWord versions i).toNat.testBit k = true ↔
      ∃ v ∈ versions, v.toNat / 32 = i ∧ v.toNat % 32 = k := by
  have hfold (word : UInt32) : (versions.foldl (fun word v =>
      if v.toNat / 32 = i then word ||| (1 <<< UInt32.ofNat (v.toNat % 32)) else word)
        word).toNat.testBit k = true ↔
      word.toNat.testBit k = true ∨ ∃ v ∈ versions, v.toNat / 32 = i ∧ v.toNat % 32 = k := by
    induction versions generalizing word with
    | nil => simp
    | cons v versions ih =>
      rw [List.foldl_cons, ih, testBit_mark word v i k, or_assoc]
      simp
  unfold bitmapWord
  rw [hfold 0]
  simp

/-- A bitmap has a word for each of its versions, and one at least. -/
theorem lt_wordCount_iff (versions : List UInt8) (i : Nat) :
    i < wordCount versions ↔ i = 0 ∨ ∃ v ∈ versions, i ≤ v.toNat / 32 := by
  have hfold (n : Nat) : i < versions.foldl (fun n v => max n (v.toNat / 32 + 1)) n ↔
      i < n ∨ ∃ v ∈ versions, i ≤ v.toNat / 32 := by
    induction versions generalizing n with
    | nil => simp
    | cons v versions ih =>
      have hmax : i < max n (v.toNat / 32 + 1) ↔ i < n ∨ i ≤ v.toNat / 32 := by
        omega
      rw [List.foldl_cons, ih, hmax, or_assoc]
      simp
  unfold wordCount
  rw [hfold 1, Nat.lt_one_iff]

/-! ## Bitmaps -/

/-- **The bitmap of a list of versions advertises these versions** and no others. -/
theorem supports_supporting (versions : List UInt8) (v : UInt8) :
    (supporting versions).supports v = true ↔ v ∈ versions := by
  have hk : v.toNat % 32 < 32 := Nat.mod_lt _ (by decide)
  unfold supporting supports
  by_cases hword : v.toNat / 32 < wordCount versions
  · have hget : ((List.range (wordCount versions)).map (bitmapWord versions))[v.toNat / 32]? =
        some (bitmapWord versions (v.toNat / 32)) := by
      rw [List.getElem?_map, List.getElem?_range hword, Option.map_some]
    simp only [hget]
    rw [testBit_toUInt64 _ hk, testBit_bitmapWord versions]
    constructor
    · rintro ⟨u, hu, hdiv, hmod⟩
      obtain rfl : u = v := UInt8.toNat_inj.mp (by omega)
      exact hu
    · intro hv
      exact ⟨v, hv, rfl, rfl⟩
  · have hget : ((List.range (wordCount versions)).map (bitmapWord versions))[v.toNat / 32]? =
        none := by
      rw [List.getElem?_eq_none]
      simpa using hword
    simp only [hget]
    refine ⟨fun h => absurd h Bool.false_ne_true, fun hv => ?_⟩
    exact absurd ((lt_wordCount_iff versions _).mpr (Or.inr ⟨v, hv, Nat.le_refl _⟩)) hword

end HelloElement

namespace Hello

variable {ctx : Context} {xid : UInt32} {vss : List (List UInt8)}

/-- A hello of bitmaps advertises the versions of all of them. -/
theorem supports_map_supporting (xid : UInt32) (vss : List (List UInt8)) (v : UInt8) :
    (Hello.mk xid (vss.map HelloElement.supporting)).supports v = true ↔
      ∃ versions ∈ vss, v ∈ versions := by
  unfold supports
  simp [HelloElement.supports_supporting]

/-- **Versions that are advertised reach the other side**: a hello of the bitmaps of some lists of
versions, if it has a wire form, is decoded as a hello that advertises the versions in these lists
and no others. -/
theorem supports_of_decode_supporting
    (hknown : Element.KnowsType ctx (HelloElement.versionBitmap []))
    (hlimit : ctx.Allows vss.length) {b : Bytes}
    (hb : Message.encode (Hello.mk xid (vss.map HelloElement.supporting)) = .ok b) (s : Bytes) :
    ∃ h : Hello, Message.decode ctx (b ++ s) = .ok (h, b.length) ∧
      ∀ v, h.supports v = true ↔ ∃ versions ∈ vss, v ∈ versions := by
  have hback : ∀ e ∈ vss.map HelloElement.supporting, Element.ReadsBack ctx e := by
    intro e he
    obtain ⟨versions, -, rfl⟩ := List.mem_map.mp he
    have hform : Element.SameForm ctx (HelloElement.supporting versions) :=
      HelloElement.sameForm hknown trivial
    exact HelloElement.readsBack_of_sameForm hform trivial
  refine ⟨_, ?_, supports_map_supporting xid vss⟩
  refine Message.decode_append_of_agree (agree_of_readsBack ?_ hback (size_lt_of_encode hb)) hb s
  rwa [List.length_map]

/-- One list out of order, one that is empty, and one with the first version of a word and the last
version of all. -/
theorem supports_of_decode_supporting_some :
    ∃ h : Hello, Message.decode {} ([4, 0, 0, 64, 0, 0, 0, 7] ++ [0, 1, 0, 8, 0, 0, 0, 0x12] ++
        [0, 1, 0, 8, 0, 0, 0, 0] ++ ([0, 1, 0, 36, 0, 0, 0, 0, 0, 0, 0, 1] ++ Bytes.zeros 20 ++
          [0x80, 0, 0, 0] ++ Bytes.zeros 4) ++ [9]) = .ok (h, 64) ∧
      ∀ v, h.supports v = true ↔ ∃ versions ∈ [[4, 1, 4], [], [255, 32]], v ∈ versions := by
  have hknown : Element.KnowsType {} (HelloElement.versionBitmap []) := fun _ => rfl
  have hencode : Message.encode (Hello.mk 7 ([[4, 1, 4], [], [255, 32]].map
      HelloElement.supporting)) = .ok ([4, 0, 0, 64, 0, 0, 0, 7] ++ [0, 1, 0, 8, 0, 0, 0, 0x12] ++
        [0, 1, 0, 8, 0, 0, 0, 0] ++ ([0, 1, 0, 36, 0, 0, 0, 0, 0, 0, 0, 1] ++ Bytes.zeros 20 ++
          [0x80, 0, 0, 0] ++ Bytes.zeros 4)) := rfl
  exact supports_of_decode_supporting hknown (.of_unlimited rfl _) hencode [9]

end Hello
end OpenFlow
