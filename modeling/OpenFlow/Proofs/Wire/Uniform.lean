import OpenFlow.Wire.Writer

/-!
# Uniform writers

A writer is *uniform* when what it appends, and whether and how it gives up, does
not depend on what the buffer already holds.  Every writer of the library is
uniform, and the instances below let the class system see it: the primitive
writers are, and all ways of putting writers together keep it.

For uniform writers `Writer.encode` turns into a homomorphism: the wire form of
`v ++ w` is the wire form of `v` in front of that of `w`.  All later reasoning
about written bytes goes through these equations.

Main statements:

* `Writer.run_of_encode_eq_ok`: a uniform writer appends its wire form to every
  buffer.
* `Writer.encode_append_eq_ok_iff`: the wire form of two writers in a row.
* `Writer.encode_padded_eq_ok_iff`: the wire form of a padded writer.
* `Writer.OpensWith.peek`: a length that is written first is in front.
* `Writer.Spans`: a writer has a wire form of so many bytes, with a rule for each
  way of putting writers together.
-/

namespace OpenFlow
namespace Writer

theorem append_toArray (p : Array UInt8) (bs : Bytes) : p ++ bs.toArray = p ++ bs := by
  apply Array.ext'
  simp

/-- A writer that treats every buffer alike. -/
class Uniform (w : Writer) : Prop where
  run_eq (p : Array UInt8) : w.run p = ⟨p ++ (w.run #[]).buffer, (w.run #[]).failure⟩

/-! ## The wire form -/

theorem encode_eq_ok_iff {w : Writer} {bs : Bytes} :
    w.encode = .ok bs ↔ w.run #[] = ⟨bs.toArray, none⟩ := by
  unfold encode run
  rcases w #[] with ⟨buffer, _ | e⟩
  · constructor
    · intro h
      rw [← Except.ok.inj h]
    · intro h
      rw [(Written.mk.inj h).1]
  · constructor
    · intro h
      exact nomatch h
    · intro h
      exact nomatch (Written.mk.inj h).2

/-- **A uniform writer appends its wire form to every buffer.** -/
theorem run_of_encode_eq_ok {w : Writer} [hw : Uniform w] {bs : Bytes}
    (h : w.encode = .ok bs) (p : Array UInt8) : w.run p = ⟨p ++ bs, none⟩ := by
  rw [hw.run_eq p, encode_eq_ok_iff.mp h, append_toArray]

/-! ## Primitive writers -/

instance : Uniform skip where
  run_eq p := by simp

instance (e : Error) : Uniform (fail e) where
  run_eq p := by simp

instance (bs : Bytes) : Uniform (bytes bs) where
  run_eq p := by simp [append_toArray]

instance (n : UInt8) : Uniform (u8 n) := inferInstanceAs (Uniform (bytes _))

instance (n : UInt16) : Uniform (u16 n) := inferInstanceAs (Uniform (bytes _))

instance (n : UInt32) : Uniform (u32 n) := inferInstanceAs (Uniform (bytes _))

instance (n : UInt64) : Uniform (u64 n) := inferInstanceAs (Uniform (bytes _))

instance (n : Nat) : Uniform (zeros n) := inferInstanceAs (Uniform (bytes _))

instance (what : String) (n : Nat) : Uniform (length16 what n) := by
  unfold length16
  split <;> infer_instance

@[simp] theorem encode_skip : skip.encode = .ok [] := rfl

@[simp] theorem encode_bytes (bs : Bytes) : (bytes bs).encode = .ok bs := by
  rw [encode_eq_ok_iff, run_bytes]
  simp

@[simp] theorem encode_u8 (n : UInt8) : (u8 n).encode = .ok [n] := encode_bytes _

@[simp] theorem encode_u16 (n : UInt16) : (u16 n).encode = .ok (Bytes.ofUInt16 n) :=
  encode_bytes _

@[simp] theorem encode_u32 (n : UInt32) : (u32 n).encode = .ok (Bytes.ofUInt32 n) :=
  encode_bytes _

@[simp] theorem encode_u64 (n : UInt64) : (u64 n).encode = .ok (Bytes.ofUInt64 n) :=
  encode_bytes _

@[simp] theorem encode_zeros (n : Nat) : (zeros n).encode = .ok (Bytes.zeros n) :=
  encode_bytes _

/-- A length is written exactly when it fits 16 bits. -/
theorem encode_length16_eq_ok_iff {what : String} {n : Nat} {bs : Bytes} :
    (length16 what n).encode = .ok bs ↔
      n < 65536 ∧ bs = Bytes.ofUInt16 (UInt16.ofNat n) := by
  unfold length16 fitLength
  by_cases h : n < 65536
  · simp [h, eq_comm]
  · simp [h, encode_eq_ok_iff]

/-- A length that does not fit is refused. -/
theorem length16_of_le {what : String} {n : Nat} (h : 65536 ≤ n) :
    length16 what n = fail (.lengthOverflow what n) := by
  unfold length16 fitLength
  rw [if_neg (Nat.not_lt.mpr h)]

/-! ## One writer after the other -/

theorem run_append (v w : Writer) (p : Array UInt8) :
    (v ++ w).run p =
      match v.run p with
      | ⟨q, none⟩ => w.run q
      | ⟨q, some e⟩ => ⟨q, some e⟩ := rfl

instance {v w : Writer} [hv : Uniform v] [hw : Uniform w] : Uniform (v ++ w) where
  run_eq p := by
    rw [run_append, run_append, hv.run_eq p]
    rcases v.run #[] with ⟨q, _ | e⟩
    · dsimp only
      rw [hw.run_eq (p ++ q), hw.run_eq q, Array.append_assoc]
    · rfl

/-- The wire form of two writers in a row. -/
theorem encode_append_eq_ok_iff {v w : Writer} [hw : Uniform w] {bs : Bytes} :
    (v ++ w).encode = .ok bs ↔
      ∃ as, v.encode = .ok as ∧ ∃ cs, w.encode = .ok cs ∧ bs = as ++ cs := by
  simp only [encode_eq_ok_iff]
  rw [run_append]
  rcases v.run #[] with ⟨q, _ | e⟩
  · dsimp only
    rw [hw.run_eq q]
    rcases w.run #[] with ⟨q', _ | e⟩
    · constructor
      · intro h
        refine ⟨q.toList, by simp, q'.toList, by simp, ?_⟩
        have h' := congrArg Array.toList (Written.mk.inj h).1
        simpa using h'.symm
      · rintro ⟨as, has, cs, hcs, rfl⟩
        rw [(Written.mk.inj has).1, (Written.mk.inj hcs).1]
        simp
    · simp
  · simp

/-- Two writers with a wire form, one after the other, have theirs in a row. -/
theorem encode_append_of_ok {v w : Writer} [Uniform w] {as cs : Bytes}
    (hv : v.encode = .ok as) (hw : w.encode = .ok cs) : (v ++ w).encode = .ok (as ++ cs) :=
  encode_append_eq_ok_iff.mpr ⟨as, hv, cs, hw, rfl⟩

/-! ## Padding -/

theorem run_padded (f : Nat → Nat) (w : Writer) (p : Array UInt8) :
    (padded f w).run p =
      match w.run p with
      | ⟨q, none⟩ => (zeros (f (q.size - p.size) - (q.size - p.size))).run q
      | ⟨q, some e⟩ => ⟨q, some e⟩ := rfl

instance {f : Nat → Nat} {w : Writer} [hw : Uniform w] : Uniform (padded f w) where
  run_eq p := by
    rw [run_padded, run_padded, hw.run_eq p]
    rcases w.run #[] with ⟨q, _ | e⟩
    · simp [zeros, ← append_toArray]
    · rfl

/-- The padding depends on the bytes of the writer itself, not on the buffer. -/
theorem encode_padded_eq_ok_iff {f : Nat → Nat} {w : Writer} {bs : Bytes} :
    (padded f w).encode = .ok bs ↔
      ∃ as, w.encode = .ok as ∧ bs = as ++ Bytes.zeros (f as.length - as.length) := by
  simp only [encode_eq_ok_iff]
  rw [run_padded]
  rcases w.run #[] with ⟨q, _ | e⟩
  · simp only [zeros, run_bytes]
    constructor
    · intro h
      refine ⟨q.toList, by simp, ?_⟩
      have h' := congrArg Array.toList (Written.mk.inj h).1
      simpa using h'.symm
    · rintro ⟨as, has, rfl⟩
      rw [(Written.mk.inj has).1]
      simp
  · simp

/-! ## Lists and fitted bodies -/

variable {α : Type}

instance {f : α → Writer} [hf : ∀ a, Uniform (f a)] (as : List α) : Uniform (each f as) := by
  induction as with
  | nil => exact inferInstanceAs (Uniform skip)
  | cons a as ih => exact inferInstanceAs (Uniform (f a ++ each f as))

@[simp] theorem each_nil (f : α → Writer) : each f [] = skip := rfl

theorem encode_each_cons_eq_ok_iff {f : α → Writer} [∀ a, Uniform (f a)] {a : α} {as : List α}
    {bs : Bytes} :
    (each f (a :: as)).encode = .ok bs ↔
      ∃ xs, (f a).encode = .ok xs ∧ ∃ ys, (each f as).encode = .ok ys ∧ bs = xs ++ ys :=
  encode_append_eq_ok_iff

instance (n : Nat) (body : Bytes) : Uniform (fitted n body) :=
  inferInstanceAs (Uniform (bytes _ ++ zeros _))

/-- A body that is as long as it has to be is written as it is. -/
theorem encode_fitted_of_length_eq {n : Nat} {body : Bytes} (h : body.length = n) :
    (fitted n body).encode = .ok body := by
  have hw := encode_append_of_ok (encode_bytes (body.take n)) (encode_zeros (n - body.length))
  simpa [fitted, h, Bytes.zeros, List.take_of_length_le (Nat.le_of_eq h)] using hw

/-! ## A length in front -/

end Writer

/-- A word in front of a string of bytes is the one that was written there. -/
theorem Bytes.peekUInt16?_append (n : UInt16) (bs : Bytes) :
    peekUInt16? (ofUInt16 n ++ bs) = some n := by
  obtain ⟨b₀, b₁, hbytes⟩ : ∃ b₀ b₁, ofUInt16 n = [b₀, b₁] := ⟨_, _, rfl⟩
  have hword : UInt16.ofNat (value [b₀, b₁]) = n := by
    rw [← hbytes, value_ofUInt16, UInt16.ofNat_toNat]
  rw [hbytes]
  exact congrArg some hword

namespace Writer

/-- The first thing that is written is a length. -/
def OpensWith (w : Writer) (k : Nat) : Prop :=
  ∃ (what : String) (v : Writer), Uniform v ∧ w = length16 what k ++ v

/-- What opens with a length has that length in front. -/
theorem OpensWith.peek {w : Writer} {k : Nat} (h : w.OpensWith k) {bs : Bytes}
    (hbs : w.encode = .ok bs) (tail : Bytes) :
    (Bytes.peekUInt16? (bs ++ tail)).map UInt16.toNat = some k := by
  obtain ⟨what, v, hv, rfl⟩ := h
  obtain ⟨as, has, cs, -, rfl⟩ := encode_append_eq_ok_iff.mp hbs
  obtain ⟨hlt, rfl⟩ := encode_length16_eq_ok_iff.mp has
  rw [List.append_assoc, Bytes.peekUInt16?_append, Option.map_some,
    UInt16.toNat_ofNat_of_lt' hlt]

/-! ## How much is written -/

/-- The writer has a wire form, and it has `n` bytes. -/
def Spans (w : Writer) (n : Nat) : Prop := ∃ bs, w.encode = .ok bs ∧ bs.length = n

namespace Spans

variable {v w : Writer} {m n : Nat}

theorem length_eq (h : Spans w n) {bs : Bytes} (hw : w.encode = .ok bs) : bs.length = n := by
  obtain ⟨bs', hw', hlen⟩ := h
  rw [hw] at hw'
  rw [Except.ok.inj hw', hlen]

theorem of_size_eq (h : Spans w m) (hmn : m = n) : Spans w n := hmn ▸ h

protected theorem skip : Spans skip 0 := ⟨[], rfl, rfl⟩

protected theorem bytes {bs : Bytes} (h : bs.length = n) : Spans (bytes bs) n :=
  ⟨bs, encode_bytes bs, h⟩

protected theorem zeros (n : Nat) : Spans (zeros n) n :=
  Spans.bytes (Bytes.length_zeros n)

protected theorem u8 (k : UInt8) : Spans (u8 k) 1 := Spans.bytes rfl

protected theorem u16 (k : UInt16) : Spans (u16 k) 2 := Spans.bytes (Bytes.length_ofUInt16 k)

protected theorem u32 (k : UInt32) : Spans (u32 k) 4 := Spans.bytes (Bytes.length_ofUInt32 k)

protected theorem u64 (k : UInt64) : Spans (u64 k) 8 := Spans.bytes (Bytes.length_ofUInt64 k)

protected theorem append [Uniform w] (hv : Spans v m) (hw : Spans w n) :
    Spans (v ++ w) (m + n) := by
  obtain ⟨as, has, hlen⟩ := hv
  obtain ⟨cs, hcs, hlen'⟩ := hw
  refine ⟨as ++ cs, encode_append_of_ok has hcs, ?_⟩
  rw [List.length_append, hlen, hlen']

protected theorem length16 {what : String} {k : Nat} (hk : k < 65536) :
    Spans (length16 what k) 2 :=
  ⟨_, encode_length16_eq_ok_iff.mpr ⟨hk, rfl⟩, Bytes.length_ofUInt16 _⟩

protected theorem padded {f : Nat → Nat} (h : Spans w n) (hf : n ≤ f n) :
    Spans (padded f w) (f n) := by
  obtain ⟨bs, hbs, hlen⟩ := h
  refine ⟨_, encode_padded_eq_ok_iff.mpr ⟨bs, hbs, rfl⟩, ?_⟩
  rw [List.length_append, Bytes.length_zeros, hlen]
  omega

/-- A fitted body has the length it is fitted to. -/
protected theorem fitted (n : Nat) (body : Bytes) : Spans (fitted n body) n := by
  refine of_size_eq (Spans.append (Spans.bytes rfl) (Spans.zeros _)) ?_
  rw [List.length_take]
  omega

protected theorem each {f : α → Writer} [∀ a, Uniform (f a)] {size : α → Nat} :
    ∀ {as : List α}, (∀ a ∈ as, Spans (f a) (size a)) → Spans (each f as) (total size as)
  | [], _ => Spans.skip
  | a :: _, h =>
    Spans.append (h a (List.mem_cons_self ..))
      (Spans.each fun a' ha' => h a' (List.mem_cons_of_mem a ha'))

/-- Members of one width. -/
protected theorem each_const {f : α → Writer} [∀ a, Uniform (f a)] {n : Nat} {as : List α}
    (h : ∀ a ∈ as, Spans (f a) n) : Spans (each f as) (n * as.length) :=
  of_size_eq (Spans.each h) (total_eq_mul_length fun _ _ => rfl)

end Spans

/-- Where a writer appends a known number of bytes, so does its padding. -/
theorem padded_eq_append {f : Nat → Nat} {w : Writer} [hw : Uniform w] {n : Nat} (h : Spans w n) :
    padded f w = w ++ zeros (f n - n) := by
  obtain ⟨bs, hbs, rfl⟩ := h
  funext p
  change (padded f w).run p = (w ++ zeros (f bs.length - bs.length)).run p
  have hrun := run_of_encode_eq_ok hbs p
  have hsize : (p ++ bs).size - p.size = bs.length := by
    rw [← append_toArray, Array.size_append, Nat.add_sub_cancel_left]
    rfl
  rw [run_padded, run_append_of_ok hrun, hrun]
  simp only [hsize]

end Writer
end OpenFlow
