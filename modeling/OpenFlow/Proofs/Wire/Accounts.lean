import OpenFlow.Proofs.Wire.Agree

/-!
# Writers that account for their lengths

Some parts of a value are written with their own length in them: elements, matches, records
and whole messages, each around others.  A writer accounts for its parts if it writes the
number of bytes it should, with each of the parts in them under the length that the part
declares, or else it gives up because one of these lengths does not fit 16 bits.  What is in
a value is counted once, by its sizes, and written once, by its writers; that both agree is
proved along the writer, with one rule for each way of putting writers together.

Main definitions:

* `SizedPart`: a part of a value that declares its own length.
* `SizedPart.WrittenIn`: such a part stands in a string of bytes, in full.
* `Writer.Accounts`: a writer writes so many bytes and these parts, or fails for one of them.

Main statements:

* `Writer.Accounts.append`, `Writer.Accounts.each`, `Writer.Accounts.framed`: parts side by
  side, and a part around others.
* `Writer.Accounts.exists_error_iff`: a writer fails exactly if the length of a part does not
  fit.
-/

namespace OpenFlow

/-- A part of a value that is written with its own length in it. -/
structure SizedPart where
  /-- How the part is written. -/
  write : Writer
  /-- The number of bytes that it takes. -/
  size : Nat
  /-- The length that it declares. -/
  declared : Nat
  /-- Where in the part the field for its length begins. -/
  lengthAt : Nat
  /-- What the part is called in the error that its length does not fit. -/
  what : String

namespace SizedPart

variable {p : SizedPart} {as cs bs : Bytes}

/-- The part stands in a string of bytes, in as many of them as it takes, and the field for its
length holds the length that it declares. -/
def WrittenIn (p : SizedPart) (bs : Bytes) : Prop :=
  ∃ front own back, bs = front ++ (own ++ back) ∧ p.write.encode = .ok own ∧
    own.length = p.size ∧
    (Bytes.peekUInt16? (own.drop p.lengthAt)).map UInt16.toNat = some p.declared

theorem WrittenIn.declared_lt (h : p.WrittenIn bs) : p.declared < 65536 := by
  obtain ⟨_, own, _, -, -, -, hpeek⟩ := h
  obtain ⟨length, -, hlength⟩ := Option.map_eq_some_iff.mp hpeek
  exact hlength ▸ length.toNat_lt

theorem WrittenIn.append_left (h : p.WrittenIn as) (cs : Bytes) : p.WrittenIn (as ++ cs) := by
  obtain ⟨front, own, back, rfl, hown⟩ := h
  refine ⟨front, own, back ++ cs, ?_, hown⟩
  simp only [List.append_assoc]

theorem WrittenIn.append_right (h : p.WrittenIn cs) (as : Bytes) : p.WrittenIn (as ++ cs) := by
  obtain ⟨front, own, back, rfl, hown⟩ := h
  refine ⟨as ++ front, own, back, ?_, hown⟩
  simp only [List.append_assoc]

/-- What a writer has written is the whole of a part. -/
theorem WrittenIn.of_encode (h : p.write.encode = .ok bs) (hsize : bs.length = p.size)
    (hpeek : (Bytes.peekUInt16? (bs.drop p.lengthAt)).map UInt16.toNat = some p.declared) :
    p.WrittenIn bs := by
  refine ⟨[], bs, [], ?_, h, hsize, hpeek⟩
  rw [List.nil_append, List.append_nil]

end SizedPart

namespace Writer

variable {v w : Writer} {e : Error} {m n : Nat}

/-! ## Where an error comes from -/

theorem encode_eq_error_iff : w.encode = .error e ↔ (w.run #[]).failure = some e := by
  unfold encode run
  rcases w #[] with ⟨buffer, _ | e'⟩
  · constructor
    · intro h
      exact nomatch h
    · intro h
      exact nomatch h
  · constructor
    · intro h
      rw [Except.error.inj h]
    · intro h
      rw [Option.some.inj h]

/-- Of two writers in a row, the first one gave up, or the second one behind it. -/
theorem cases_of_encode_append_eq_error [hw : Uniform w] (h : (v ++ w).encode = .error e) :
    v.encode = .error e ∨ w.encode = .error e := by
  simp only [encode_eq_error_iff] at h ⊢
  rcases hv : v.run #[] with ⟨q, _ | e'⟩
  · rw [run_append_of_ok hv, hw.run_eq q] at h
    exact Or.inr h
  · rw [run_append_of_error hv] at h
    exact Or.inl h

/-- Padding never gives up. -/
theorem encode_eq_error_of_padded {f : Nat → Nat} (h : (padded f w).encode = .error e) :
    w.encode = .error e := by
  simp only [encode_eq_error_iff] at h ⊢
  rw [run_padded] at h
  rcases hw : w.run #[] with ⟨q, _ | e'⟩
  · rw [hw] at h
    exact nomatch h
  · rw [hw] at h
    exact h

/-- A length that is not written does not fit. -/
theorem of_encode_length16_eq_error {what : String} {k : Nat}
    (h : (length16 what k).encode = .error e) : 65535 < k ∧ e = .lengthOverflow what k := by
  unfold length16 fitLength at h
  by_cases hk : k < 65536
  · rw [if_pos hk] at h
    exact nomatch h
  · rw [if_neg hk] at h
    exact ⟨Nat.le_of_not_lt hk, (Except.error.inj h).symm⟩

/-! ## Accounts -/

/-- What a writer writes has `n` bytes, with all these parts in them, and it gives up only if the
length of one of the parts does not fit 16 bits, with an error that names this length. -/
structure Accounts (w : Writer) (n : Nat) (parts : List SizedPart) : Prop where
  of_ok : ∀ bs, w.encode = .ok bs → bs.length = n ∧ ∀ p ∈ parts, p.WrittenIn bs
  of_error : ∀ e, w.encode = .error e →
    ∃ p ∈ parts, 65535 < p.declared ∧ e = .lengthOverflow p.what p.declared

namespace Accounts

variable {parts others : List SizedPart}

/-- **A writer fails exactly if the length of one of its parts does not fit.** -/
theorem exists_error_iff (h : Accounts w n parts) :
    (∃ e, w.encode = .error e) ↔ ∃ p ∈ parts, 65535 < p.declared := by
  constructor
  · rintro ⟨e, he⟩
    obtain ⟨p, hp, hlong, -⟩ := h.of_error e he
    exact ⟨p, hp, hlong⟩
  · rintro ⟨p, hp, hlong⟩
    rcases hw : w.encode with e | bs
    · exact ⟨e, rfl⟩
    · have hlt := ((h.of_ok bs hw).2 p hp).declared_lt
      omega

/-- A writer that never fails has no parts to account for. -/
protected theorem of_spans (h : Spans w n) : Accounts w n [] where
  of_ok bs hbs := ⟨h.length_eq hbs, fun p hp => absurd hp List.not_mem_nil⟩
  of_error e he := by
    obtain ⟨bs, hbs, -⟩ := h
    rw [hbs] at he
    exact nomatch he

theorem of_size_eq (h : Accounts w m parts) (hmn : m = n) : Accounts w n parts := hmn ▸ h

/-- The parts of two writers in a row. -/
protected theorem append [Uniform w] (hv : Accounts v m parts) (hw : Accounts w n others) :
    Accounts (v ++ w) (m + n) (parts ++ others) where
  of_ok bs hbs := by
    obtain ⟨as, has, cs, hcs, rfl⟩ := encode_append_eq_ok_iff.mp hbs
    obtain ⟨hlen, hparts⟩ := hv.of_ok as has
    obtain ⟨hlen', hothers⟩ := hw.of_ok cs hcs
    refine ⟨by rw [List.length_append, hlen, hlen'], fun p hp => ?_⟩
    rcases List.mem_append.mp hp with hp | hp
    · exact (hparts p hp).append_left cs
    · exact (hothers p hp).append_right as
  of_error e he := by
    rcases cases_of_encode_append_eq_error he with he | he
    · obtain ⟨p, hp, herror⟩ := hv.of_error e he
      exact ⟨p, List.mem_append_left others hp, herror⟩
    · obtain ⟨p, hp, herror⟩ := hw.of_error e he
      exact ⟨p, List.mem_append_right parts hp, herror⟩

/-- A layout in front of the parts. -/
protected theorem behind [Uniform w] (hv : Spans v m) (hw : Accounts w n parts) :
    Accounts (v ++ w) (m + n) parts :=
  Accounts.append (Accounts.of_spans hv) hw

/-- The parts of the members of a list. -/
protected theorem each {α : Type} {f : α → Writer} [∀ a, Uniform (f a)] {size : α → Nat}
    {partsOf : α → List SizedPart} {as : List α}
    (h : ∀ a ∈ as, Accounts (f a) (size a) (partsOf a)) :
    Accounts (each f as) (total size as) (as.flatMap partsOf) := by
  induction as with
  | nil => exact Accounts.of_spans Spans.skip
  | cons a as ih =>
    have hrest := ih fun b hb => h b (List.mem_cons_of_mem a hb)
    exact Accounts.append (h a (List.mem_cons_self ..)) hrest

/-- Padding holds no parts. -/
protected theorem padded {f : Nat → Nat} (h : Accounts w n parts) (hf : n ≤ f n) :
    Accounts (padded f w) (f n) parts where
  of_ok bs hbs := by
    obtain ⟨as, has, rfl⟩ := encode_padded_eq_ok_iff.mp hbs
    obtain ⟨hlen, hparts⟩ := h.of_ok as has
    refine ⟨?_, fun p hp => (hparts p hp).append_left _⟩
    rw [List.length_append, Bytes.length_zeros, hlen]
    omega
  of_error e he := h.of_error e (encode_eq_error_of_padded he)

/-- **A part around others**: some fields, the length of the part, and what follows it. -/
theorem framed [Uniform v] [Uniform w] {p : SizedPart}
    (hwrite : p.write = v ++ (length16 p.what p.declared ++ w)) (hv : Spans v p.lengthAt)
    (hw : Accounts w n parts) (hsize : p.lengthAt + (2 + n) = p.size) :
    Accounts (v ++ (length16 p.what p.declared ++ w)) p.size (p :: parts) where
  of_ok bs hbs := by
    have hown := hbs
    rw [← hwrite] at hown
    obtain ⟨front, hfront, rest, hrest, rfl⟩ := encode_append_eq_ok_iff.mp hbs
    obtain ⟨length, hlength, body, hbody, rfl⟩ := encode_append_eq_ok_iff.mp hrest
    obtain ⟨hlen, hparts⟩ := hw.of_ok body hbody
    have hsize' : (front ++ (length ++ body)).length = p.size := by
      rw [List.length_append, List.length_append, hv.length_eq hfront, hlen, ← hsize]
      rw [(encode_length16_eq_ok_iff.mp hlength).2, Bytes.length_ofUInt16]
    -- The field for the length stands behind the first fields.
    have hpeek : (Bytes.peekUInt16? ((front ++ (length ++ body)).drop p.lengthAt)).map
        UInt16.toNat = some p.declared := by
      rw [List.drop_left' (hv.length_eq hfront)]
      exact OpensWith.peek ⟨p.what, skip, inferInstance, (append_skip _).symm⟩ hlength body
    refine ⟨hsize', fun q hq => ?_⟩
    rcases List.mem_cons.mp hq with rfl | hq
    · exact SizedPart.WrittenIn.of_encode hown hsize' hpeek
    · exact ((hparts q hq).append_right length).append_right front
  of_error e he := by
    rcases cases_of_encode_append_eq_error he with he | he
    · obtain ⟨bs, hbs, -⟩ := hv
      rw [hbs] at he
      exact nomatch he
    rcases cases_of_encode_append_eq_error he with he | he
    · obtain ⟨hlong, rfl⟩ := of_encode_length16_eq_error he
      exact ⟨p, List.mem_cons_self .., hlong, rfl⟩
    · obtain ⟨q, hq, herror⟩ := hw.of_error e he
      exact ⟨q, List.mem_cons_of_mem p hq, herror⟩

/-- A part that opens with its length. -/
theorem opened [Uniform w] {p : SizedPart} (hwrite : p.write = length16 p.what p.declared ++ w)
    (hat : p.lengthAt = 0) (hw : Accounts w n parts) (hsize : 2 + n = p.size) :
    Accounts (length16 p.what p.declared ++ w) p.size (p :: parts) := by
  refine framed (v := skip) hwrite ?_ hw ?_
  · exact hat ▸ Spans.skip
  · rw [hat, Nat.zero_add, hsize]

end Accounts
end Writer
end OpenFlow
