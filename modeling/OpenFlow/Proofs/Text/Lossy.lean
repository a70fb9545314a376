import OpenFlow.Proofs.Text.RoundTrip

/-!
# What bytes are decoded to when they are not well formed

The characters that bytes spell can be said without a decoder.  Where the bytes begin with the
UTF-8 form of a character, this character is spelled and its bytes are done with.  Where they do
not, one replacement character stands for as many of them as begin the form of some character, or
for a single byte if none does.  This leaves no choice: no form of a character begins another one,
and the longest beginning is longer than any other.  `Text.decode` takes bytes apart in this way.

Main definitions:

* `Text.Begins`: bytes that begin the form of a character and do not complete it.
* `Text.IllFormed`: the bytes at the front for which one replacement character stands.
* `Text.Lossy`: the characters that bytes are decoded to.

Main statements:

* `Text.Lossy.unique`: bytes are decoded to one list of characters only.
* `Text.decode_eq_iff`: `Text.decode` gives it.
-/

namespace OpenFlow
namespace Text

/-! ## The bytes of a character -/

/-- The lead bytes of each width. -/
theorem toNat_of_width {b : UInt8} :
    (width b = 1 → b.toNat < 128) ∧ (width b = 2 → 194 ≤ b.toNat ∧ b.toNat ≤ 223) ∧
      (width b = 3 → 224 ≤ b.toNat ∧ b.toNat ≤ 239) ∧
      (width b = 4 → 240 ≤ b.toNat ∧ b.toNat ≤ 244) ∧ width b ≤ 4 := by
  rw [width_of_toNat]
  repeat' split
  all_goals omega

/-- The number of a character that is made of a valid code point. -/
theorem toNat_ofNat_of_valid {n : Nat} (h : n.isValidChar) : (Char.ofNat n).val.toNat = n := by
  rw [Char.ofNat, dif_pos h]
  rfl

/-- **What spells a character is its UTF-8 form**: the ranges of the bytes behind a lead byte leave
no other way to spell the same code point. -/
theorem Spells.eq_utf8EncodeChar {c : Char} {bs : Bytes} (h : Spells c bs) :
    bs = String.utf8EncodeChar c := by
  have hbyte : ∀ {b : UInt8} {m : Nat}, b.toNat = m → b = UInt8.ofNat m := fun h =>
    h ▸ UInt8.ofNat_toNat.symm
  cases h with
  | @one b₀ hw hc =>
    have hlead := toNat_of_width.1 hw
    have hn : c.val.toNat = b₀.toNat := by
      rw [← hc, toNat_ofNat_of_valid (Or.inl (by omega))]
    rw [String.utf8EncodeChar, hn, if_pos (by omega), ← hbyte rfl]
  | @two b₀ b₁ hw h₁ hc =>
    have hlead := toNat_of_width.2.1 hw
    rw [mayFollow_iff] at h₁
    unfold payload at hc
    have hn : c.val.toNat = b₀.toNat % 32 * 64 + b₁.toNat % 64 := by
      rw [← hc, toNat_ofNat_of_valid (Or.inl (by omega))]
    rw [String.utf8EncodeChar, hn, if_neg (by omega), if_pos (by omega)]
    simp only [List.cons.injEq, and_true]
    exact ⟨hbyte (by omega), hbyte (by omega)⟩
  | @three b₀ b₁ b₂ hw h₁ h₂ hc =>
    have hlead := toNat_of_width.2.2.1 hw
    rw [mayFollow_iff] at h₁
    rw [isContinuation_iff] at h₂
    unfold payload at hc
    have hn : c.val.toNat = (b₀.toNat % 16 * 64 + b₁.toNat % 64) * 64 + b₂.toNat % 64 := by
      rw [← hc, toNat_ofNat_of_valid (by unfold Nat.isValidChar; omega)]
    rw [String.utf8EncodeChar, hn, if_neg (by omega), if_neg (by omega), if_pos (by omega)]
    simp only [List.cons.injEq, and_true]
    exact ⟨hbyte (by omega), hbyte (by omega), hbyte (by omega)⟩
  | @four b₀ b₁ b₂ b₃ hw h₁ h₂ h₃ hc =>
    have hlead := toNat_of_width.2.2.2.1 hw
    rw [mayFollow_iff] at h₁
    rw [isContinuation_iff] at h₂ h₃
    unfold payload at hc
    have hn : c.val.toNat =
        ((b₀.toNat % 8 * 64 + b₁.toNat % 64) * 64 + b₂.toNat % 64) * 64 + b₃.toNat % 64 := by
      rw [← hc, toNat_ofNat_of_valid (by unfold Nat.isValidChar; omega)]
    rw [String.utf8EncodeChar, hn, if_neg (by omega), if_neg (by omega), if_neg (by omega)]
    simp only [List.cons.injEq, and_true]
    exact ⟨hbyte (by omega), hbyte (by omega), hbyte (by omega), hbyte (by omega)⟩

section Inversion

variable {c : Char} {b₀ b₁ b₂ b₃ : UInt8} {more : Bytes}

theorem spells_of_eq {bs : Bytes} (h : bs = String.utf8EncodeChar c) : Spells c bs :=
  h ▸ spells_utf8EncodeChar c

theorem Spells.width_ne_zero (h : Spells c (b₀ :: more)) : width b₀ ≠ 0 := by
  cases h with
  | one hw hc => exact hw ▸ Nat.one_ne_zero
  | two hw h₁ hc => exact hw ▸ Nat.succ_ne_zero 1
  | three hw h₁ h₂ hc => exact hw ▸ Nat.succ_ne_zero 2
  | four hw h₁ h₂ h₃ hc => exact hw ▸ Nat.succ_ne_zero 3

theorem Spells.mayFollow (h : Spells c (b₀ :: b₁ :: more)) : mayFollow b₀ b₁ = true := by
  cases h <;> assumption

theorem Spells.isContinuation_third (h : Spells c (b₀ :: b₁ :: b₂ :: more)) :
    isContinuation b₂ = true := by
  cases h <;> assumption

theorem Spells.isContinuation_fourth (h : Spells c (b₀ :: b₁ :: b₂ :: b₃ :: more)) :
    isContinuation b₃ = true := by
  cases h
  assumption

end Inversion

/-- No form of a character begins the form of another one. -/
theorem utf8EncodeChar_append_inj {c d : Char} {as bs : Bytes}
    (h : String.utf8EncodeChar c ++ as = String.utf8EncodeChar d ++ bs) : c = d ∧ as = bs := by
  have hdecode := congrArg decode h
  rw [decode_utf8EncodeChar, decode_utf8EncodeChar] at hdecode
  obtain rfl := (List.cons.inj hdecode).1
  exact ⟨rfl, List.append_cancel_left h⟩

/-! ## Beginnings of characters -/

/-- Bytes that begin the form of a character and do not complete it. -/
def Begins (bs : Bytes) : Prop :=
  ∃ (c : Char) (more : Bytes), more ≠ [] ∧ bs ++ more = String.utf8EncodeChar c

theorem Begins.of_append {as bs : Bytes} (h : Begins (as ++ bs)) : Begins as := by
  obtain ⟨c, more, hne, hc⟩ := h
  refine ⟨c, bs ++ more, ?_, by rw [← List.append_assoc, hc]⟩
  exact fun hnil => hne (List.append_eq_nil_iff.mp hnil).2

section Leads

variable {b₀ b₁ b₂ : UInt8}

theorem begins_three (hw : width b₀ = 4) (h₁ : mayFollow b₀ b₁ = true)
    (h₂ : isContinuation b₂ = true) : Begins [b₀, b₁, b₂] :=
  ⟨_, [0x80], List.cons_ne_nil _ _, (Spells.four hw h₁ h₂ (by decide) rfl).eq_utf8EncodeChar⟩

theorem begins_two (hw : 3 ≤ width b₀) (h₁ : mayFollow b₀ b₁ = true) : Begins [b₀, b₁] := by
  have hle := (toNat_of_width (b := b₀)).2.2.2.2
  obtain hw | hw : width b₀ = 3 ∨ width b₀ = 4 := by omega
  · exact ⟨_, [0x80], List.cons_ne_nil _ _,
      (Spells.three hw h₁ (by decide) rfl).eq_utf8EncodeChar⟩
  · have hthree : Begins ([b₀, b₁] ++ [0x80]) := begins_three hw h₁ (by decide)
    exact hthree.of_append

/-- Every lead byte has a byte that may follow it. -/
theorem exists_mayFollow (lead : UInt8) : ∃ b, mayFollow lead b = true := by
  -- Only these two lead bytes exclude the first continuation byte.
  by_cases h : lead = 0xE0 ∨ lead = 0xF0
  · refine ⟨0xA0, ?_⟩
    rcases h with rfl | rfl <;> decide
  · refine ⟨0x80, ?_⟩
    rw [not_or] at h
    unfold mayFollow
    rw [if_neg h.1]
    split
    · decide
    · rw [if_neg h.2]
      split <;> decide

theorem begins_one (hw : 2 ≤ width b₀) : Begins [b₀] := by
  obtain ⟨b₁, h₁⟩ := exists_mayFollow b₀
  obtain hw | hw : width b₀ = 2 ∨ 3 ≤ width b₀ := by omega
  · exact ⟨_, [b₁], List.cons_ne_nil _ _, (Spells.two hw h₁ rfl).eq_utf8EncodeChar⟩
  · have htwo : Begins ([b₀] ++ [b₁]) := begins_two hw h₁
    exact htwo.of_append

end Leads

/-! ## Bytes for which a replacement character stands -/

/-- The bytes `own` at the front of `own ++ rest` are not well formed: no character is spelled
there, and they are the longest beginning of one, or a single byte. -/
structure IllFormed (own rest : Bytes) : Prop where
  ne_nil : own ≠ []
  not_spelled : ∀ c : Char, ¬ String.utf8EncodeChar c <+: own ++ rest
  single_or_begins : own.length = 1 ∨ Begins own
  longest : ∀ bs : Bytes, bs <+: own ++ rest → Begins bs → bs.length ≤ own.length

namespace IllFormed

variable {own rest : Bytes}

/-- A byte that leads no character. -/
theorem single {b : UInt8} (h : width b = 0) (rest : Bytes) : IllFormed [b] rest := by
  have hfront : ∀ (c : Char) (bs more : Bytes), bs ++ more = String.utf8EncodeChar c →
      bs <+: b :: rest → bs = [] := by
    intro c bs more hc hbs
    cases bs with
    | nil => rfl
    | cons b' bs =>
      obtain ⟨rfl, -⟩ := List.cons_prefix_cons.mp hbs
      exact absurd h (spells_of_eq hc).width_ne_zero
  refine ⟨List.cons_ne_nil _ _, fun c hc => ?_, Or.inl rfl, ?_⟩
  · exact absurd (hfront c _ [] (List.append_nil _) hc) String.utf8EncodeChar_ne_nil
  · rintro bs hbs ⟨c, more, -, hc⟩
    rw [hfront c bs more hc hbs]
    exact Nat.zero_le _

/-- The beginning of a character that the next byte does not continue. -/
theorem of_begins (hne : own ≠ []) (h : Begins own)
    (hstop : ∀ (c : Char) (b : UInt8) (more : Bytes),
      own ++ b :: more = String.utf8EncodeChar c → rest.head? ≠ some b) : IllFormed own rest := by
  have hfront : ∀ (c : Char) (bs more : Bytes), bs ++ more = String.utf8EncodeChar c →
      bs <+: own ++ rest → bs.length ≤ own.length := by
    intro c bs more hc hbs
    refine Nat.le_of_not_lt fun hlong => ?_
    obtain ⟨beyond, rfl⟩ := List.prefix_of_prefix_length_le (List.prefix_append own rest) hbs
      (Nat.le_of_lt hlong)
    rw [List.prefix_append_right_inj] at hbs
    cases beyond with
    | nil => exact absurd hlong (by rw [List.append_nil]; exact Nat.lt_irrefl _)
    | cons b beyond =>
      obtain ⟨tail, rfl⟩ := hbs
      refine hstop c b (beyond ++ more) ?_ rfl
      rw [← hc, List.append_assoc, List.cons_append]
  refine ⟨hne, fun c hc => ?_, Or.inr h, ?_⟩
  · -- The form of `c` would begin the one that `own` begins.
    obtain ⟨d, more, hmore, hd⟩ := h
    obtain ⟨mid, rfl⟩ := List.prefix_of_prefix_length_le hc (List.prefix_append own rest)
      (hfront c _ [] (List.append_nil _) hc)
    rw [List.append_assoc, ← List.append_nil (String.utf8EncodeChar d)] at hd
    exact hmore (List.append_eq_nil_iff.mp (utf8EncodeChar_append_inj hd).2).2
  · rintro bs hbs ⟨c, more, -, hc⟩
    exact hfront c bs more hc hbs

/-- The bytes at the front that are not well formed are no more than it takes. -/
theorem length_le {own' rest' : Bytes} (h : IllFormed own rest) (h' : IllFormed own' rest')
    (heq : own ++ rest = own' ++ rest') : own.length ≤ own'.length := by
  rcases h.single_or_begins with hone | hbegins
  · rw [hone]
    exact List.length_pos_iff.mpr h'.ne_nil
  · exact h'.longest own (heq ▸ List.prefix_append own rest) hbegins

end IllFormed

/-! ## Decoding -/

/-- The characters that bytes are decoded to, with a replacement character for each stretch that is
not well formed. -/
inductive Lossy : Bytes → List Char → Prop
  | nil : Lossy [] []
  | char (c : Char) {rest : Bytes} {cs : List Char} (h : Lossy rest cs) :
      Lossy (String.utf8EncodeChar c ++ rest) (c :: cs)
  | illFormed {own rest : Bytes} {cs : List Char} (hown : IllFormed own rest)
      (h : Lossy rest cs) : Lossy (own ++ rest) (replacement :: cs)

/-- **Bytes are decoded to one list of characters only.** -/
theorem Lossy.unique {bs : Bytes} {cs ds : List Char} (h : Lossy bs cs) (h' : Lossy bs ds) :
    cs = ds := by
  induction h generalizing ds with
  | nil =>
    generalize hbs : ([] : Bytes) = bs at h'
    cases h' with
    | nil => rfl
    | char c h' =>
      exact absurd (List.append_eq_nil_iff.mp hbs.symm).1 String.utf8EncodeChar_ne_nil
    | illFormed hown h' => exact absurd (List.append_eq_nil_iff.mp hbs.symm).1 hown.ne_nil
  | @char c rest cs h ih =>
    generalize hbs : String.utf8EncodeChar c ++ rest = bs at h'
    cases h' with
    | nil => exact absurd (List.append_eq_nil_iff.mp hbs).1 String.utf8EncodeChar_ne_nil
    | char d h' =>
      obtain ⟨rfl, rfl⟩ := utf8EncodeChar_append_inj hbs
      rw [ih h']
    | illFormed hown h' => exact absurd ⟨rest, hbs⟩ (hown.not_spelled c)
  | @illFormed own rest cs hown h ih =>
    generalize hbs : own ++ rest = bs at h'
    cases h' with
    | nil => exact absurd (List.append_eq_nil_iff.mp hbs).1 hown.ne_nil
    | char c h' => exact absurd ⟨_, hbs.symm⟩ (hown.not_spelled c)
    | illFormed hown' h' =>
      -- Each is the longest, so they are equally long.
      have hlen := Nat.le_antisymm (hown.length_le hown' hbs) (hown'.length_le hown hbs.symm)
      obtain ⟨rfl, rfl⟩ := List.append_inj hbs hlen
      rw [ih h']

theorem Lossy.of_spells {c : Char} {own rest : Bytes} {cs : List Char} (hown : Spells c own)
    (h : Lossy rest cs) : Lossy (own ++ rest) (c :: cs) :=
  hown.eq_utf8EncodeChar ▸ .char c h

/-- The beginning of a character at the end of the bytes. -/
theorem Lossy.of_begins {own : Bytes} (hne : own ≠ []) (h : Begins own) :
    Lossy own [replacement] := by
  have hown : IllFormed own [] := .of_begins hne h fun _ _ _ _ => (Option.some_ne_none _).symm
  simpa using Lossy.illFormed hown .nil

/-- The beginning of a character in front of a byte that does not continue it. -/
theorem Lossy.of_stopped {own rest : Bytes} {b : UInt8} {cs : List Char} (hne : own ≠ [])
    (h : Begins own)
    (hstop : ∀ (c : Char) (more : Bytes), ¬ Spells c (own ++ b :: more))
    (hrest : Lossy (b :: rest) cs) : Lossy (own ++ b :: rest) (replacement :: cs) := by
  refine .illFormed (.of_begins hne h fun c b' more hc hb => ?_) hrest
  obtain rfl : b = b' := Option.some_inj.mp hb
  exact hstop c more (spells_of_eq hc)

/-- A lead byte of neither width zero nor width one has width two, three or four. -/
theorem width_of_ne {b : UInt8} (hzero : width b ≠ 0) (hone : width b ≠ 1) :
    2 ≤ width b ∧ width b ≤ 4 :=
  ⟨by omega, toNat_of_width.2.2.2.2⟩

/-- Decoding takes bytes apart into characters and stretches that are not well formed. -/
theorem lossy_decode (bs : Bytes) : Lossy bs (decode bs) := by
  fun_induction decode bs with
  | case1 => exact .nil
  | case2 b₀ rest hw ih => exact .illFormed (.single hw rest) ih
  | case3 b₀ rest hw ih => exact .of_spells (.one hw rfl) ih
  | case4 b₀ hw0 hw1 =>
    exact .of_begins (List.cons_ne_nil _ _) (begins_one (width_of_ne hw0 hw1).1)
  | case5 b₀ b₁ rest h₁ hw0 hw1 hw ih => exact .of_spells (.two hw h₁ rfl) ih
  | case6 b₀ b₁ h₁ hw0 hw1 hw2 =>
    have hw := width_of_ne hw0 hw1
    exact .of_begins (List.cons_ne_nil _ _) (begins_two (by omega) h₁)
  | case7 b₀ b₁ h₁ b₂ rest h₂ hw0 hw1 hw2 hw ih => exact .of_spells (.three hw h₁ h₂ rfl) ih
  | case8 b₀ b₁ h₁ b₂ h₂ hw0 hw1 hw2 hw3 =>
    have hw := width_of_ne hw0 hw1
    exact .of_begins (List.cons_ne_nil _ _) (begins_three (by omega) h₁ h₂)
  | case9 b₀ b₁ h₁ b₂ h₂ b₃ rest h₃ hw0 hw1 hw2 hw3 ih =>
    have hw := width_of_ne hw0 hw1
    exact .of_spells (.four (by omega) h₁ h₂ h₃ rfl) ih
  | case10 b₀ b₁ h₁ b₂ h₂ b₃ rest h₃ hw0 hw1 hw2 hw3 ih =>
    have hw := width_of_ne hw0 hw1
    exact .of_stopped (List.cons_ne_nil _ _) (begins_three (by omega) h₁ h₂)
      (fun _ _ hspells => h₃ hspells.isContinuation_fourth) ih
  | case11 b₀ b₁ h₁ b₂ rest h₂ hw0 hw1 hw2 ih =>
    have hw := width_of_ne hw0 hw1
    exact .of_stopped (List.cons_ne_nil _ _) (begins_two (by omega) h₁)
      (fun _ _ hspells => h₂ hspells.isContinuation_third) ih
  | case12 b₀ b₁ rest h₁ hw0 hw1 ih =>
    exact .of_stopped (List.cons_ne_nil _ _) (begins_one (width_of_ne hw0 hw1).1)
      (fun _ _ hspells => h₁ hspells.mayFollow) ih

/-- **Decoding gives what bytes are decoded to.** -/
theorem decode_eq_iff {bs : Bytes} {cs : List Char} : decode bs = cs ↔ Lossy bs cs :=
  ⟨fun h => h ▸ lossy_decode bs, fun h => (lossy_decode bs).unique h⟩

end Text
end OpenFlow
