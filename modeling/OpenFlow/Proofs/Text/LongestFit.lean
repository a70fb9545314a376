import OpenFlow.Proofs.Text.Cut

/-!
# How much of a text comes back from its field

A field gives back the characters in front of the first zero character, if it has room for all of
their bytes.  If it has not, it gives back the longest beginning of them for which it has room.
What is left of the field then holds the first bytes of the next character, and these are read as
one replacement character; nothing is read behind a beginning that fills the field.

Main definitions:

* `Text.beforeNul`: a text up to its first zero character.
* `Text.LongestFit`: the longest beginning of a text that takes no more than some bytes.

Main statements:

* `Text.held_of_lt`: what a field holds of characters that it has no room for.
* `Text.read_write_longestFit`: what comes back of any text from a field of any width.
-/

namespace OpenFlow
namespace Text

/-! ## The characters that fit whole -/

/-- The characters at the front that fit in `n` bytes whole. -/
def whole : Nat → List Char → List Char
  | _, [] => []
  | n, c :: cs => if c.utf8Size ≤ n then c :: whole (n - c.utf8Size) cs else []

theorem whole_cons_of_le {n : Nat} {c : Char} (h : c.utf8Size ≤ n) (cs : List Char) :
    whole n (c :: cs) = c :: whole (n - c.utf8Size) cs := if_pos h

theorem whole_cons_of_lt {n : Nat} {c : Char} (h : n < c.utf8Size) (cs : List Char) :
    whole n (c :: cs) = [] := if_neg (Nat.not_le_of_lt h)

/-- They stand at the front. -/
theorem whole_prefix (n : Nat) (cs : List Char) : whole n cs <+: cs := by
  induction cs generalizing n with
  | nil => exact List.prefix_refl []
  | cons c cs ih =>
    by_cases hfits : c.utf8Size ≤ n
    · rw [whole_cons_of_le hfits]
      exact List.cons_prefix_cons.mpr ⟨rfl, ih _⟩
    · rw [whole_cons_of_lt (Nat.lt_of_not_le hfits)]
      exact List.nil_prefix

/-- They fit. -/
theorem total_whole_le (n : Nat) (cs : List Char) : total Char.utf8Size (whole n cs) ≤ n := by
  induction cs generalizing n with
  | nil => exact Nat.zero_le n
  | cons c cs ih =>
    by_cases hfits : c.utf8Size ≤ n
    · have hrest := ih (n - c.utf8Size)
      rw [whole_cons_of_le hfits, total_cons]
      omega
    · rw [whole_cons_of_lt (Nat.lt_of_not_le hfits)]
      exact Nat.zero_le n

/-- No more of the characters fit. -/
theorem prefix_whole {n : Nat} {cs ds : List Char} (hds : ds <+: cs)
    (hfits : total Char.utf8Size ds ≤ n) : ds <+: whole n cs := by
  induction cs generalizing n ds with
  | nil => exact List.prefix_nil.mp hds ▸ List.nil_prefix
  | cons c cs ih =>
    cases ds with
    | nil => exact List.nil_prefix
    | cons d ds =>
      obtain ⟨rfl, hrest⟩ := List.cons_prefix_cons.mp hds
      rw [total_cons] at hfits
      rw [whole_cons_of_le (by omega)]
      exact List.cons_prefix_cons.mpr ⟨rfl, ih hrest (by omega)⟩

/-- **What a field holds of characters that it has no room for**: those that fit whole, and a
replacement character unless they fill the field. -/
theorem held_of_lt {n : Nat} {cs : List Char} (h : n < total Char.utf8Size cs) :
    held n cs = if total Char.utf8Size (whole n cs) < n then whole n cs ++ [replacement]
      else whole n cs := by
  induction cs generalizing n with
  | nil => exact absurd h (Nat.not_lt_zero n)
  | cons c cs ih =>
    by_cases hfits : c.utf8Size ≤ n
    · rw [total_cons] at h
      rw [held_cons_of_le hfits, whole_cons_of_le hfits, ih (by omega), total_cons]
      by_cases hfull : total Char.utf8Size (whole (n - c.utf8Size) cs) < n - c.utf8Size
      · rw [if_pos hfull, if_pos (by omega), List.cons_append]
      · rw [if_neg hfull, if_neg (by omega)]
    · have hcut : n < c.utf8Size := Nat.lt_of_not_le hfits
      rw [held_cons_of_lt hcut, whole_cons_of_lt hcut, total_nil, List.nil_append]
      cases n with
      | zero => rfl
      | succ n => rfl

/-! ## Texts -/

/-- A text up to its first zero character. -/
def beforeNul (s : String) : String := String.ofList (s.toList.takeWhile (· ≠ '\x00'))

/-- The text `u` is the longest beginning of `t` whose UTF-8 form has no more than `n` bytes. -/
structure LongestFit (n : Nat) (t u : String) : Prop where
  begins : u.toList <+: t.toList
  fits : u.utf8ByteSize ≤ n
  longest : ∀ v : String, v.toList <+: t.toList → v.utf8ByteSize ≤ n → v.length ≤ u.length

/-- The number of bytes of a text is the sum over its characters. -/
theorem utf8ByteSize_eq_total (s : String) : s.utf8ByteSize = total Char.utf8Size s.toList := by
  rw [← length_encode, ← String.size_toByteArray, ← String.utf8Encode_toList, List.utf8Encode,
    List.size_toByteArray, encode]

/-- The characters that fit whole are the longest beginning of a text that fits. -/
theorem longestFit_whole (n : Nat) (t : String) :
    LongestFit n t (String.ofList (whole n t.toList)) where
  begins := by
    rw [String.toList_ofList]
    exact whole_prefix n t.toList
  fits := by
    rw [utf8ByteSize_eq_total, String.toList_ofList]
    exact total_whole_le n t.toList
  longest v hv hfits := by
    rw [utf8ByteSize_eq_total] at hfits
    rw [← String.length_toList, String.length_ofList]
    exact (prefix_whole hv hfits).length_le

/-- **What comes back of a text from a field**, for every text and every width.  Writing appends as
many bytes as the field has, and does not fail.  What is read of them is the text up to its first
zero character, if the field has room for it, and otherwise the longest beginning of it for which
there is room, with a replacement character behind it exactly if it does not fill the field.  What
is read of any field is what the bytes in front of its first zero byte are decoded to. -/
theorem read_write_longestFit (n : Nat) (s : String) :
    (∀ p : Array UInt8, (Writer.text n s).run p = ⟨p ++ write n s, none⟩) ∧
    (write n s).length = n ∧
    ((beforeNul s).utf8ByteSize ≤ n → read (write n s) = beforeNul s) ∧
    (n < (beforeNul s).utf8ByteSize → ∃ u : String, LongestFit n (beforeNul s) u ∧
      read (write n s) = if u.utf8ByteSize < n then u.push replacement else u) ∧
    ∀ (field : Bytes) (t : String),
      read field = t ↔ Lossy (field.takeWhile (· ≠ 0)) t.toList := by
  have hread : read (write n s) = String.ofList (held n (beforeNul s).toList) := by
    rw [read_write_eq, beforeNul, String.toList_ofList]
  refine ⟨fun p => Writer.run_bytes _ p, length_write n s, fun hroom => ?_, fun hcut => ?_,
    fun field t => ?_⟩
  · rw [utf8ByteSize_eq_total] at hroom
    rw [hread, held_eq_self_iff.mpr (Or.inl hroom), String.ofList_toList]
  · refine ⟨_, longestFit_whole n (beforeNul s), ?_⟩
    rw [utf8ByteSize_eq_total] at hcut
    rw [hread, held_of_lt hcut, utf8ByteSize_eq_total, String.toList_ofList]
    split
    · rw [← String.toList_inj, String.toList_push, String.toList_ofList, String.toList_ofList]
    · rfl
  · rw [← decode_eq_iff, ← String.toList_inj, read, String.toList_ofList]

/-- A text that ends at its zero character, and one whose last character is cut. -/
theorem read_write_longestFit_euro :
    ((beforeNul "né\x00€").utf8ByteSize ≤ 3 ∧ read (write 3 "né\x00€") = beforeNul "né\x00€") ∧
    5 < (beforeNul "né€").utf8ByteSize ∧ ∃ u : String, LongestFit 5 (beforeNul "né€") u ∧
      read (write 5 "né€") = if u.utf8ByteSize < 5 then u.push replacement else u := by
  have hroom : (beforeNul "né\x00€").utf8ByteSize ≤ 3 := by decide
  have hcut : 5 < (beforeNul "né€").utf8ByteSize := by decide
  exact ⟨⟨hroom, (read_write_longestFit 3 "né\x00€").2.2.1 hroom⟩, hcut,
    (read_write_longestFit 5 "né€").2.2.2.1 hcut⟩

example : read (write 5 "né€") = "né\uFFFD" ∧ read (write 3 "né€") = "né" := by decide

end Text
end OpenFlow
