import OpenFlow.Proofs.Wire.Uniform
import OpenFlow.Wire.Reader

/-!
# Writers and readers that agree

`Agree w r c n tail a` says that the writer `w` and the reader `r` are two sides of
one layout for the value `a`: the wire form of `w` has `n` bytes, and where the
cursor `c` faces it, with `tail` and nothing else behind it, `r` gives `a`, stops just
behind it and raises no warning.  The tail is part of the statement
because some readers take all that is left, and the cursor because some records
measure how far they have read.

A layout that is a sequence of fields is proved by a sequence of the rules below,
one for each field, in the order in which both sides have them.
-/

namespace OpenFlow

/-! ## Writers in a row, regrouped -/

namespace Writer

theorem append_assoc (u v w : Writer) : u ++ v ++ w = u ++ (v ++ w) := by
  funext p
  change (u ++ v ++ w).run p = (u ++ (v ++ w)).run p
  rw [run_append, run_append, run_append]
  rcases u.run p with ⟨q, _ | e⟩
  · rfl
  · rfl

@[simp] theorem append_skip (w : Writer) : w ++ skip = w := by
  funext p
  change (w ++ skip).run p = w.run p
  rw [run_append]
  rcases w.run p with ⟨q, _ | e⟩
  · rfl
  · rfl

end Writer

variable {α β : Type}

/-- After a reader that raises no warning, the next one decides the outcome. -/
theorem Reader.run_bind_of_quiet {r : Reader α} {f : α → Reader β} {c c' : Cursor} {a : α}
    (h : r.run c = ⟨.ok a, c', 0⟩) : (r >>= f).run c = (f a).run c' := by
  rw [Reader.run_bind_of_ok h, Nat.zero_add]

/-- A word that is there is read. -/
theorem Reader.run_word_of_le {α : Type} {n : Nat} (ofBytes : Bytes → α) {c : Cursor}
    (h : n ≤ c.remaining) : (bytes n >>= fun x => pure (ofBytes x)).run c =
      ⟨.ok (ofBytes (c.rest.take n)), c.advance n, 0⟩ := by
  have hexactly : (exactly n).run c = ⟨.ok ⟨c.rest.take n, Cursor.length_take_rest h⟩,
      c.advance n, 0⟩ := run_exactly_of_le h
  unfold bytes
  rw [bind_assoc, run_bind_of_quiet hexactly, pure_bind, run_pure]

/-- The cursor lies inside its buffer, and these bytes follow it. -/
structure Cursor.Faces (c : Cursor) (bs : Bytes) : Prop where
  rest_eq : c.rest = bs
  pos_le : c.pos ≤ c.size

namespace Cursor.Faces

variable {c : Cursor} {as bs : Bytes}

theorem size_eq (h : c.Faces bs) : c.size = c.pos + bs.length := by
  have hlen := c.length_rest
  have hpos := h.pos_le
  rw [h.rest_eq] at hlen
  omega

/-- What a cursor faces lies inside its buffer. -/
theorem pos_add_le (h : c.Faces (as ++ bs)) : c.pos + as.length ≤ c.size := by
  have hsize := h.size_eq
  rw [List.length_append] at hsize
  omega

/-- A cursor that has passed what it faced faces what lies behind. -/
theorem advance (h : c.Faces (as ++ bs)) : (c.advance as.length).Faces bs where
  rest_eq := by rw [rest_advance, h.rest_eq, List.drop_left]
  pos_le := by
    rw [pos_advance, size_advance]
    exact h.pos_add_le

theorem at_append (as bs : Bytes) : (Cursor.at (as ++ bs) as.length).Faces bs where
  rest_eq := by rw [rest_at, List.drop_left]
  pos_le := by rw [pos_at, size_at, List.length_append]; omega

theorem start (bs : Bytes) : (Cursor.start bs).Faces bs := at_append [] bs

end Cursor.Faces

/-- A writer and a reader are two sides of one layout. -/
def Agree (w : Writer) (r : Reader α) (c : Cursor) (n : Nat) (tail : Bytes) (a : α) : Prop :=
  ∃ bs, w.encode = .ok bs ∧ bs.length = n ∧
    (c.Faces (bs ++ tail) → r.run c = ⟨.ok a, c.advance n, 0⟩)

namespace Agree

variable {v w : Writer} {r : Reader α} {f : α → Reader β} {c : Cursor} {m n : Nat}
  {tail : Bytes} {a : α} {b : β}

/-- What the reader makes of the bytes of the writer. -/
theorem run_eq (h : Agree w r c n tail a) {bs : Bytes} (hw : w.encode = .ok bs)
    (hc : c.Faces (bs ++ tail)) : r.run c = ⟨.ok a, c.advance n, 0⟩ := by
  obtain ⟨bs', hw', -, hr⟩ := h
  rw [hw] at hw'
  exact hr (Except.ok.inj hw' ▸ hc)

theorem spans (h : Agree w r c n tail a) : Writer.Spans w n := by
  obtain ⟨bs, hw, hlen, -⟩ := h
  exact ⟨bs, hw, hlen⟩

/-- The widths of the fields of a layout add up to its size. -/
theorem of_size_eq (h : Agree w r c m tail a) (hmn : m = n := by rfl) : Agree w r c n tail a :=
  hmn ▸ h

/-- Two layouts in a row. -/
protected theorem bind [Writer.Uniform w] (h : ∀ tail, Agree v r c n tail a)
    (h' : Agree w (f a) (c.advance n) m tail b) : Agree (v ++ w) (r >>= f) c (n + m) tail b := by
  obtain ⟨bs, hw, hlen, hr⟩ := h'
  obtain ⟨as, hv, hlen', hr'⟩ := h (bs ++ tail)
  refine ⟨as ++ bs, Writer.encode_append_of_ok hv hw, ?_, fun hc => ?_⟩
  · rw [List.length_append, hlen, hlen']
  · rw [List.append_assoc] at hc
    have hrest : (c.advance n).Faces (bs ++ tail) := hlen' ▸ hc.advance
    rw [Reader.run_bind_of_quiet (hr' hc), hr hrest, Cursor.advance_advance]

/-- Nothing is written, and nothing is read. -/
protected theorem pure (a : α) (c : Cursor) (tail : Bytes) :
    Agree Writer.skip (pure a) c 0 tail a :=
  ⟨[], Writer.encode_skip, rfl, fun _ => by rw [Reader.run_pure, Cursor.advance_zero]⟩

/-- The rules below end in a writer of nothing. -/
theorem of_append_skip (h : Agree (w ++ Writer.skip) r c n tail a) : Agree w r c n tail a :=
  Writer.append_skip w ▸ h

/-- The last field of a layout, whose value is only wrapped. -/
protected theorem map {g : α → β} (h : Agree w r c n tail a) :
    Agree w (r >>= fun x => pure (g x)) c n tail (g a) := by
  obtain ⟨bs, hw, hlen, hr⟩ := h
  refine ⟨bs, hw, hlen, fun hc => ?_⟩
  rw [Reader.run_bind_of_quiet (hr hc), Reader.run_pure]

/-- A reader that looks where it stands. -/
protected theorem cursor {g : Cursor → Reader β} (h : Agree w (g c) c n tail b) :
    Agree w (Reader.cursor >>= g) c n tail b := by
  obtain ⟨bs, hw, hlen, hr⟩ := h
  refine ⟨bs, hw, hlen, fun hc => ?_⟩
  rw [Reader.run_cursor_bind, hr hc]

/-- A reader that may fail, and does not. -/
protected theorem attempt {g : Except Error α → Reader β} (h : Agree w r c n tail a)
    (hg : g (.ok a) = pure b) : Agree w (Reader.attempt r >>= g) c n tail b := by
  obtain ⟨bs, hw, hlen, hr⟩ := h
  refine ⟨bs, hw, hlen, fun hc => ?_⟩
  have hattempt : (Reader.attempt r).run c = ⟨.ok (.ok a), c.advance n, 0⟩ := by
    change Reader.attempt r c = _
    unfold Reader.attempt
    rw [show r c = _ from hr hc]
  rw [Reader.run_bind_of_quiet hattempt, hg, Reader.run_pure]

/-- A reader that may fail, and does; then another one goes back to where it began. -/
protected theorem attempt_error {g : Except Error α → Reader β} {k : Reader β} {e : Error}
    (h : ∀ bs, w.encode = .ok bs → c.Faces (bs ++ tail) → ∃ c', r.run c = ⟨.error e, c', 0⟩)
    (hg : g (.error e) = Reader.moveTo c >>= fun _ => k) (hk : Agree w k c n tail b) :
    Agree w (Reader.attempt r >>= g) c n tail b := by
  obtain ⟨bs, hw, hlen, hr⟩ := hk
  refine ⟨bs, hw, hlen, fun hc => ?_⟩
  obtain ⟨c', hfail⟩ := h bs hw hc
  have hattempt : (Reader.attempt r).run c = ⟨.ok (.error e), c', 0⟩ := by
    change Reader.attempt r c = _
    unfold Reader.attempt
    rw [show r c = _ from hfail]
  have hback : (Reader.moveTo c).run c' = ⟨.ok (), c, 0⟩ := rfl
  rw [Reader.run_bind_of_quiet hattempt, hg, Reader.run_bind_of_quiet hback, hr hc]

/-! ## Bytes -/

/-- Bytes that are known to be that many. -/
theorem exactly {bs : Bytes} (h : bs.length = n) (c : Cursor) (tail : Bytes) :
    Agree (Writer.bytes bs) (Reader.exactly n) c n tail ⟨bs, h⟩ := by
  subst h
  refine ⟨bs, Writer.encode_bytes bs, rfl, fun hc => ?_⟩
  have hle : bs.length ≤ c.remaining := by
    rw [← Cursor.length_rest_eq_remaining, hc.rest_eq, List.length_append]
    omega
  rw [Reader.run_exactly_of_le hle]
  simp only [hc.rest_eq, List.take_left]

/-- A run of bytes of a known length. -/
theorem bytes {bs : Bytes} (h : bs.length = n) (c : Cursor) (tail : Bytes) :
    Agree (Writer.bytes bs) (Reader.bytes n) c n tail bs :=
  Agree.map (exactly h c tail)

/-- All that is left. -/
theorem rest (bs : Bytes) (c : Cursor) :
    Agree (Writer.bytes bs) Reader.rest c bs.length [] bs := by
  refine ⟨bs, Writer.encode_bytes bs, rfl, fun hc => ?_⟩
  rw [List.append_nil] at hc
  have hrem : c.remaining = bs.length := by
    rw [← Cursor.length_rest_eq_remaining, hc.rest_eq]
  change Outcome.mk (.ok c.rest) (c.advance c.remaining) 0 = _
  rw [hc.rest_eq, hrem]

/-- All that is left, written as a body of just that length. -/
theorem rest_fitted {bs : Bytes} (h : bs.length = n) (c : Cursor) :
    Agree (Writer.fitted n bs) Reader.rest c n [] bs := by
  subst h
  obtain ⟨bs', hw, hlen, hr⟩ := rest bs c
  rw [Writer.encode_bytes] at hw
  rw [← Except.ok.inj hw] at hr
  exact ⟨bs, Writer.encode_fitted_of_length_eq rfl, rfl, hr⟩

/-- Padding is written as zeros and passed over. -/
theorem padding (n : Nat) (c : Cursor) (tail : Bytes) :
    Agree (Writer.zeros n) (Reader.skip n) c n tail () := by
  refine ⟨_, Writer.encode_zeros n, Bytes.length_zeros n, fun hc => ?_⟩
  have hend := hc.pos_add_le
  rw [Bytes.length_zeros] at hend
  exact if_pos hend

protected theorem zeros [Writer.Uniform w] {g : Unit → Reader β}
    (h : Agree w (g ()) (c.advance n) m tail b) :
    Agree (Writer.zeros n ++ w) (Reader.skip n >>= g) c (n + m) tail b :=
  Agree.bind (padding n c) h

/-! ## Words -/

/-- A word, from the laws of its codec. -/
theorem word {ofBytes : Bytes → α} {bs : Bytes} (hlen : bs.length = n) (ha : ofBytes bs = a)
    (c : Cursor) (tail : Bytes) :
    Agree (Writer.bytes bs) (Reader.bytes n >>= fun x => pure (ofBytes x)) c n tail a :=
  ha ▸ Agree.map (bytes hlen c tail)

protected theorem u8 [Writer.Uniform w] {k : UInt8} {g : UInt8 → Reader β}
    (h : Agree w (g k) (c.advance 1) m tail b) :
    Agree (Writer.u8 k ++ w) (Reader.u8 >>= g) c (1 + m) tail b :=
  Agree.bind (word rfl (by simp [Bytes.value]) c) h

protected theorem u16 [Writer.Uniform w] {k : UInt16} {g : UInt16 → Reader β}
    (h : Agree w (g k) (c.advance 2) m tail b) :
    Agree (Writer.u16 k ++ w) (Reader.u16 >>= g) c (2 + m) tail b :=
  Agree.bind (word (by simp) (by simp) c) h

protected theorem u32 [Writer.Uniform w] {k : UInt32} {g : UInt32 → Reader β}
    (h : Agree w (g k) (c.advance 4) m tail b) :
    Agree (Writer.u32 k ++ w) (Reader.u32 >>= g) c (4 + m) tail b :=
  Agree.bind (word (by simp) (by simp) c) h

protected theorem u64 [Writer.Uniform w] {k : UInt64} {g : UInt64 → Reader β}
    (h : Agree w (g k) (c.advance 8) m tail b) :
    Agree (Writer.u64 k ++ w) (Reader.u64 >>= g) c (8 + m) tail b :=
  Agree.bind (word (by simp) (by simp) c) h

/-- A length that fits its field. -/
protected theorem length16 [Writer.Uniform w] {what : String} {k : Nat} {g : UInt16 → Reader β}
    (hk : k < 65536) (h : Agree w (g (UInt16.ofNat k)) (c.advance 2) m tail b) :
    Agree (Writer.length16 what k ++ w) (Reader.u16 >>= g) c (2 + m) tail b := by
  have hw : Writer.length16 what k = Writer.u16 (UInt16.ofNat k) := by
    unfold Writer.length16 fitLength
    rw [if_pos hk]
  rw [hw]
  exact Agree.u16 h

/-! ## The last field -/

theorem last_zeros {b : β} (c : Cursor) (tail : Bytes) :
    Agree (Writer.zeros n) (Reader.skip n >>= fun _ => pure b) c n tail b :=
  Agree.map (padding n c tail)

theorem last_u32 {k : UInt32} {g : UInt32 → β} (c : Cursor) (tail : Bytes) :
    Agree (Writer.u32 k) (Reader.u32 >>= fun x => pure (g x)) c 4 tail (g k) :=
  Agree.map (word (by simp) (by simp) c tail)

theorem last_u64 {k : UInt64} {g : UInt64 → β} (c : Cursor) (tail : Bytes) :
    Agree (Writer.u64 k) (Reader.u64 >>= fun x => pure (g x)) c 8 tail (g k) :=
  Agree.map (word (by simp) (by simp) c tail)

/-! ## Repetition -/

/-- A list whose members have a layout of one width each. -/
theorem times {f : α → Writer} [∀ a, Writer.Uniform (f a)] {r : Reader α} :
    ∀ {as : List α}, (∀ a ∈ as, ∀ c tail, Agree (f a) r c n tail a) → ∀ (c : Cursor) (tail : Bytes),
      Agree (Writer.each f as) (Reader.times r as.length) c (n * as.length) tail as
  | [], _, c, tail => Agree.pure [] c tail
  | a :: as, h, c, tail => by
    have hrest := times (fun a' ha' => h a' (List.mem_cons_of_mem a ha')) (c.advance n) tail
    have htail := Agree.map (g := fun l => a :: l) hrest
    refine of_size_eq (Agree.bind (h a (List.mem_cons_self ..) c) htail) ?_
    rw [List.length_cons, Nat.mul_succ, Nat.add_comm]

end Agree
end OpenFlow
