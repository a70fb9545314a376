import OpenFlow.Proofs.Text.Lossy

/-!
# Text that does not fit its field

A field of `n` bytes holds the first `n` bytes of a text, and the cut may go through a
character.  What is left of this character is the beginning of a well-formed one, so it is read as
a single replacement character, and the characters in front of it are read as they were.

The text that a field gives back need not fit the field either: a byte that is not well formed is
read as a character of three bytes.  Written back, such a text loses what stands behind the width of
the field, and so it does not come back unless all that was cut is a part of the replacement
character at its end.  Whatever comes back the second time has been cut already and stays as it is.

Main definitions:

* `Text.held`: the characters that a field gives back of those that were written in it.
* `Text.reread`: the text that a field gives back.
* `Text.Keeps`: a field of a width keeps a text.

Main statements:

* `Text.read_write_eq`: what is read of a text that was written.
* `Text.reread_eq_self_iff`: a text comes back exactly if its field keeps it.
* `Text.reread_reread`: what has come back once comes back again.
-/

namespace OpenFlow
namespace Text

/-! ## A character that is cut -/

/-- The first bytes of a character, but not all of them, are decoded to one replacement
character. -/
theorem Spells.decode_cut {c : Char} {bs : Bytes} (h : Spells c bs) {k : Nat} (hpos : 0 < k)
    (hlt : k < bs.length) : decode (bs.take k) = [replacement] := by
  have hne : bs.take k ≠ [] := by
    rw [← List.length_pos_iff, List.length_take]
    omega
  have hbegins : Begins (bs.take k) := by
    refine ⟨c, bs.drop k, ?_, ?_⟩
    · rw [← List.length_pos_iff, List.length_drop]
      omega
    · rw [List.take_append_drop, h.eq_utf8EncodeChar]
  exact decode_eq_iff.mpr (.of_begins hne hbegins)

/-! ## What a field holds of a text -/

/-- The characters that a field of `n` bytes gives back: those that fit in it whole, one after the
other, and a replacement character for one that is cut. -/
def held : Nat → List Char → List Char
  | _, [] => []
  | n, c :: cs =>
    if c.utf8Size ≤ n then c :: held (n - c.utf8Size) cs
    else if n = 0 then [] else [replacement]

@[simp] theorem held_nil (n : Nat) : held n [] = [] := rfl

theorem held_cons_of_le {n : Nat} {c : Char} (h : c.utf8Size ≤ n) (cs : List Char) :
    held n (c :: cs) = c :: held (n - c.utf8Size) cs := if_pos h

theorem held_cons_of_lt {n : Nat} {c : Char} (h : n < c.utf8Size) (cs : List Char) :
    held n (c :: cs) = if n = 0 then [] else [replacement] := if_neg (Nat.not_le_of_lt h)

/-- **The first bytes of a text** are decoded to what a field of so many bytes holds of it. -/
theorem decode_take_flatMap (cs : List Char) (n : Nat) :
    decode ((cs.flatMap String.utf8EncodeChar).take n) = held n cs := by
  induction cs generalizing n with
  | nil => simp [decode]
  | cons c cs ih =>
    have hlen : (String.utf8EncodeChar c).length = c.utf8Size := String.length_utf8EncodeChar c
    rw [List.flatMap_cons, List.take_append, hlen]
    by_cases hfits : c.utf8Size ≤ n
    · rw [List.take_of_length_le (hlen ▸ hfits), decode_utf8EncodeChar, ih,
        held_cons_of_le hfits]
    · have hcut : n < c.utf8Size := Nat.lt_of_not_le hfits
      rw [Nat.sub_eq_zero_of_le (Nat.le_of_lt hcut), List.take_zero, List.append_nil,
        held_cons_of_lt hcut]
      by_cases hzero : n = 0
      · simp [hzero, decode]
      · rw [if_neg hzero]
        exact (spells_utf8EncodeChar c).decode_cut (Nat.pos_of_ne_zero hzero) (hlen ▸ hcut)

/-- The bytes of a text in front of the first zero byte are those of its characters in front of the
first zero character. -/
theorem takeWhile_encode (s : String) : (encode s).takeWhile (· ≠ 0) =
    (s.toList.takeWhile (· ≠ '\x00')).flatMap String.utf8EncodeChar := by
  unfold encode
  induction s.toList with
  | nil => rfl
  | cons c cs ih =>
    by_cases hc : c = '\x00'
    · subst hc
      rfl
    · have hbytes : ∀ b ∈ String.utf8EncodeChar c, decide (b ≠ 0) = true := by
        intro b hb
        exact decide_eq_true (ne_zero_of_mem_utf8EncodeChar hc hb)
      rw [List.flatMap_cons, List.takeWhile_append_of_pos hbytes, ih,
        List.takeWhile_cons_of_pos (by simpa using hc), List.flatMap_cons]

/-- **What is read of a text that was written** is what the field holds of its characters in front
of the first zero character. -/
theorem read_write_eq (n : Nat) (s : String) :
    read (write n s) = String.ofList (held n (s.toList.takeWhile (· ≠ '\x00'))) := by
  have hzeros : ∀ k, (Bytes.zeros k).takeWhile (fun b => decide (b ≠ 0)) = [] := by
    intro k
    cases k with
    | zero => rfl
    | succ k => rfl
  have hfield (bs : Bytes) (k : Nat) :
      (bs ++ Bytes.zeros k).takeWhile (· ≠ 0) = bs.takeWhile (· ≠ 0) := by
    induction bs with
    | nil => exact hzeros k
    | cons b bs ih =>
      rw [List.cons_append, List.takeWhile_cons, List.takeWhile_cons, ih]
  unfold read write
  rw [hfield, ← List.take_takeWhile, takeWhile_encode, decode_take_flatMap]

/-! ## Which texts come back -/

/-- Characters come back if they fit in the field, or if the last one is a replacement character
and the only one that is cut. -/
theorem held_eq_self_iff {n : Nat} {cs : List Char} :
    held n cs = cs ↔ total Char.utf8Size cs ≤ n ∨
      ∃ ds, cs = ds ++ [replacement] ∧ total Char.utf8Size ds < n := by
  induction cs generalizing n with
  | nil => simp
  | cons c cs ih =>
    by_cases hfits : c.utf8Size ≤ n
    · rw [held_cons_of_le hfits, List.cons.injEq, ih, total_cons]
      constructor
      · rintro ⟨-, hrest | ⟨ds, rfl, hlt⟩⟩
        · exact Or.inl (by omega)
        · refine Or.inr ⟨c :: ds, rfl, ?_⟩
          rw [total_cons]
          omega
      · rintro (hall | ⟨ds, hds, hlt⟩)
        · exact ⟨rfl, Or.inl (by omega)⟩
        · cases ds with
          | nil =>
            obtain ⟨-, rfl⟩ := List.cons.inj hds
            exact ⟨rfl, Or.inl (Nat.zero_le _)⟩
          | cons d ds =>
            obtain ⟨rfl, rfl⟩ := List.cons.inj hds
            rw [total_cons] at hlt
            exact ⟨rfl, Or.inr ⟨ds, rfl, by omega⟩⟩
    · have hcut : n < c.utf8Size := Nat.lt_of_not_le hfits
      rw [held_cons_of_lt hcut, total_cons]
      constructor
      · intro h
        by_cases hzero : n = 0
        · rw [if_pos hzero] at h
          cases h
        · rw [if_neg hzero] at h
          cases h
          exact Or.inr ⟨[], rfl, Nat.pos_of_ne_zero hzero⟩
      · rintro (hall | ⟨ds, hds, hlt⟩)
        · omega
        · cases ds with
          | nil =>
            obtain ⟨rfl, rfl⟩ := List.cons.inj hds
            exact if_neg (Nat.ne_of_gt hlt)
          | cons d ds =>
            obtain ⟨rfl, rfl⟩ := List.cons.inj hds
            rw [total_cons] at hlt
            omega

/-- What is held of some characters fits in the field, or is cut at its end only. -/
theorem total_held (n : Nat) (cs : List Char) : total Char.utf8Size (held n cs) ≤ n ∨
    ∃ ds, held n cs = ds ++ [replacement] ∧ total Char.utf8Size ds < n := by
  induction cs generalizing n with
  | nil => exact Or.inl (Nat.zero_le n)
  | cons c cs ih =>
    by_cases hfits : c.utf8Size ≤ n
    · rw [held_cons_of_le hfits]
      rcases ih (n - c.utf8Size) with hrest | ⟨ds, hds, hlt⟩
      · refine Or.inl ?_
        rw [total_cons]
        omega
      · refine Or.inr ⟨c :: ds, congrArg (c :: ·) hds, ?_⟩
        rw [total_cons]
        omega
    · rw [held_cons_of_lt (Nat.lt_of_not_le hfits)]
      by_cases hzero : n = 0
      · rw [if_pos hzero]
        exact Or.inl (Nat.zero_le n)
      · rw [if_neg hzero]
        exact Or.inr ⟨[], rfl, Nat.pos_of_ne_zero hzero⟩

/-- What is held once is held again. -/
theorem held_held (n : Nat) (cs : List Char) : held n (held n cs) = held n cs :=
  held_eq_self_iff.mpr (total_held n cs)

/-! ## Texts without the zero character -/

/-- Of characters none of which is zero, none stands behind a zero character. -/
theorem takeWhile_eq_self {cs : List Char} (h : '\x00' ∉ cs) :
    cs.takeWhile (· ≠ '\x00') = cs := by
  have hall : ∀ c ∈ cs, decide (c ≠ '\x00') = true := by
    intro c hc
    exact decide_eq_true fun hzero => h (hzero ▸ hc)
  have happend : (cs ++ []).takeWhile (· ≠ '\x00') = cs ++ [].takeWhile (· ≠ '\x00') :=
    List.takeWhile_append_of_pos hall
  simpa using happend

/-- What spells the zero character is a zero byte, its UTF-8 form. -/
theorem Spells.ne_nul {c : Char} {bs : Bytes} (h : Spells c bs) (hbs : ∀ b ∈ bs, b ≠ 0) :
    c ≠ '\x00' := by
  rintro rfl
  rw [h.eq_utf8EncodeChar] at hbs
  exact hbs 0 (by decide) rfl

/-- A character is spelled by some of these bytes, or it stands for bytes that spell none. -/
def StemsFrom (c : Char) (bs : Bytes) : Prop :=
  c = replacement ∨ ∃ own, Spells c own ∧ own.Sublist bs

theorem StemsFrom.of_sublist {c : Char} {as bs : Bytes} (h : StemsFrom c as)
    (hsub : as.Sublist bs) : StemsFrom c bs :=
  h.imp_right fun ⟨own, hown, has⟩ => ⟨own, hown, has.trans hsub⟩

/-- A character at the front, and those that the bytes behind are decoded to. -/
theorem stemsFrom_of_mem_cons {c d : Char} {cs : List Char} {own rest : Bytes}
    (hd : d = replacement ∨ Spells d own) (hrest : c ∈ cs → StemsFrom c rest) (h : c ∈ d :: cs) :
    StemsFrom c (own ++ rest) := by
  rcases List.mem_cons.mp h with rfl | h
  · exact hd.imp_right fun hspells => ⟨own, hspells, List.sublist_append_left own rest⟩
  · exact (hrest h).of_sublist (List.sublist_append_right own rest)

/-- Every character that bytes are decoded to stems from them. -/
theorem stemsFrom_of_mem_decode {c : Char} {bs : Bytes} (h : c ∈ decode bs) : StemsFrom c bs := by
  have hlossy := lossy_decode bs
  generalize decode bs = cs at h hlossy
  induction hlossy with
  | nil => exact absurd h List.not_mem_nil
  | @char d rest cs hrest ih =>
    exact stemsFrom_of_mem_cons (.inr (spells_utf8EncodeChar d)) ih h
  | @illFormed own rest cs hown hrest ih => exact stemsFrom_of_mem_cons (.inl rfl) ih h

/-- **Bytes that are not zero are not decoded to the zero character.** -/
theorem nul_notMem_decode {bs : Bytes} (h : ∀ b ∈ bs, b ≠ 0) : '\x00' ∉ decode bs := by
  intro hmem
  rcases stemsFrom_of_mem_decode hmem with hc | ⟨own, hown, hsub⟩
  · exact absurd hc (by decide)
  · exact hown.ne_nul (fun b hb => h b (hsub.subset hb)) rfl

/-- A text that was read has no zero character. -/
theorem nul_notMem_read (field : Bytes) : '\x00' ∉ (read field).toList := by
  have hfront : ∀ b ∈ field.takeWhile (· ≠ 0), b ≠ 0 := by
    intro b hb
    simpa using List.all_eq_true.mp List.all_takeWhile b hb
  rw [read, String.toList_ofList]
  exact nul_notMem_decode hfront

/-! ## Texts that come back -/

/-- The text that a field of `n` bytes gives back. -/
def reread (n : Nat) (s : String) : String := read (write n s)

/-- A field of `n` bytes keeps a text: all of its bytes fit, or it ends in a replacement character,
all in front of that fits, and the field has a byte of it at least. -/
def Keeps (n : Nat) (s : String) : Prop :=
  (encode s).length ≤ n ∨ ∃ t : String, s = t.push replacement ∧ (encode t).length < n

theorem length_encode (s : String) : (encode s).length = total Char.utf8Size s.toList := by
  unfold encode
  induction s.toList with
  | nil => rfl
  | cons c cs ih =>
    rw [List.flatMap_cons, List.length_append, String.length_utf8EncodeChar, ih, total_cons]

/-- What a field keeps, by the characters of the text. -/
theorem keeps_iff {n : Nat} {s : String} : Keeps n s ↔ held n s.toList = s.toList := by
  rw [held_eq_self_iff, Keeps, length_encode]
  refine or_congr_right ⟨?_, ?_⟩
  · rintro ⟨t, rfl, hlt⟩
    exact ⟨t.toList, String.toList_push _, length_encode t ▸ hlt⟩
  · rintro ⟨ds, hds, hlt⟩
    refine ⟨String.ofList ds, String.toList_inj.mp ?_, ?_⟩
    · rw [hds, String.toList_push, String.toList_ofList]
    · rwa [length_encode, String.toList_ofList]

/-- **A text without a zero character comes back exactly if its field keeps it.** -/
theorem reread_eq_self_iff {n : Nat} {s : String} (h : '\x00' ∉ s.toList) :
    reread n s = s ↔ Keeps n s := by
  rw [reread, read_write_eq, takeWhile_eq_self h, keeps_iff]
  constructor
  · intro heq
    have hlist := congrArg String.toList heq
    rwa [String.toList_ofList] at hlist
  · intro heq
    rw [heq, String.ofList_toList]

/-- **What has come back once comes back again**, whatever the text was. -/
theorem reread_reread (n : Nat) (s : String) : reread n (reread n s) = reread n s := by
  have hnul : '\x00' ∉ (reread n s).toList := nul_notMem_read _
  rw [reread_eq_self_iff hnul, keeps_iff, reread, read_write_eq, String.toList_ofList, held_held]

end Text
end OpenFlow
