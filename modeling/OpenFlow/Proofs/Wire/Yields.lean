import OpenFlow.Wire.Reader

/-!
# What a reader that succeeds has done

From a reader that gives a value one can go back: the readers in a row that it is made of
have given theirs, and the words among them are the bytes that stood at the cursor.
Where only the value matters, and not the bytes that it came from, it is enough to go
along the reader.  `Reader.Yields r P` says that all that `r` can give has the property
`P`, and it has one rule for each way of putting readers together; `Reader.Refuses r P`
says the same of the errors.

Main statements:

* `Reader.exists_of_run_bind`: what two readers in a row have done.
* `Reader.of_run_word`: where a word comes from.
* `Reader.Yields.bind`: what comes of one reader is what the next one is given.
* `Reader.Refuses.bind`: two readers in a row give up with the errors of both.
-/

namespace OpenFlow
namespace Reader

variable {α β : Type}

/-! ## Going back -/

/-- Two readers in a row give a value only if the first one gives one, and the second one
behind it. -/
theorem of_run_bind {r : Reader α} {f : α → Reader β} {c c'' : Cursor} {b : β} {w : Nat}
    (h : (r >>= f).run c = ⟨.ok b, c'', w⟩) :
    ∃ a c' w₁ w₂, r.run c = ⟨.ok a, c', w₁⟩ ∧ (f a).run c' = ⟨.ok b, c'', w₂⟩ := by
  rcases hr : r.run c with ⟨e | a, c', w₁⟩
  · rw [run_bind_of_error hr] at h
    cases h
  · rw [run_bind_of_ok hr] at h
    rcases hf : (f a).run c' with ⟨result, cursor, w₂⟩
    rw [hf] at h
    cases h
    exact ⟨a, c', w₁, w₂, rfl, hf⟩

/-- The same where only the value matters. -/
theorem exists_of_run_bind {r : Reader α} {f : α → Reader β} {c : Cursor} {b : β}
    (h : ((r >>= f).run c).result = .ok b) :
    ∃ a c' w, r.run c = ⟨.ok a, c', w⟩ ∧ ((f a).run c').result = .ok b := by
  rcases hrun : (r >>= f).run c with ⟨result, cursor, w⟩
  rw [hrun] at h
  obtain rfl : result = .ok b := h
  obtain ⟨a, c', w₁, w₂, hr, hf⟩ := of_run_bind hrun
  exact ⟨a, c', w₁, hr, congrArg Outcome.result hf⟩

/-- A reader that gives up gives no value. -/
theorem run_fail_ne {e : Error} {c : Cursor} {a : α} :
    ((fail e : Reader α).run c).result ≠ .ok a := by
  intro h
  cases h

/-- Bytes that were read are those at the cursor. -/
theorem of_run_exactly {n : Nat} {c c' : Cursor} {bs : { bs : Bytes // bs.length = n }} {w : Nat}
    (h : (exactly n).run c = ⟨.ok bs, c', w⟩) :
    n ≤ c.remaining ∧ bs.val = c.rest.take n ∧ c' = c.advance n := by
  by_cases hn : n ≤ c.remaining
  · rw [run_exactly_of_le hn] at h
    cases h
    exact ⟨hn, rfl, rfl⟩
  · rw [run_exactly_of_lt (Nat.lt_of_not_le hn)] at h
    cases h

/-- A word that was read is the one that the bytes at the cursor spell. -/
theorem of_run_word {n : Nat} {ofBytes : Bytes → α} {c c' : Cursor} {a : α} {w : Nat}
    (h : (bytes n >>= fun x => pure (ofBytes x)).run c = ⟨.ok a, c', w⟩) :
    n ≤ c.remaining ∧ a = ofBytes (c.rest.take n) ∧ c' = c.advance n := by
  unfold bytes at h
  rcases hr : (exactly n).run c with ⟨e | bs, d, v⟩
  · rw [bind_assoc, run_bind_of_error hr] at h
    cases h
  · obtain ⟨hn, hbs, rfl⟩ := of_run_exactly hr
    rw [bind_assoc, run_bind_of_ok hr, pure_bind, run_pure] at h
    cases h
    exact ⟨hn, congrArg ofBytes hbs, rfl⟩

/-- Padding that was passed over lay inside of the buffer. -/
theorem of_run_skip {n : Nat} {c c' : Cursor} {u : Unit} {w : Nat}
    (h : (skip n).run c = ⟨.ok u, c', w⟩) : c.pos + n ≤ c.size ∧ c' = c.advance n := by
  change (if c.pos + n ≤ c.size then _ else _ : Outcome Unit) = _ at h
  by_cases hn : c.pos + n ≤ c.size
  · rw [if_pos hn] at h
    cases h
    exact ⟨hn, rfl⟩
  · rw [if_neg hn] at h
    cases h

/-- All that is left is taken. -/
theorem run_rest (c : Cursor) : rest.run c = ⟨.ok c.rest, c.advance c.remaining, 0⟩ := rfl

theorem run_attempt_of_ok {r : Reader α} {c c' : Cursor} {a : α} {w : Nat}
    (h : r.run c = ⟨.ok a, c', w⟩) : (attempt r).run c = ⟨.ok (.ok a), c', w⟩ := by
  change attempt r c = _
  unfold attempt
  rw [show r c = _ from h]

theorem run_attempt_of_error {r : Reader α} {c c' : Cursor} {e : Error} {w : Nat}
    (h : r.run c = ⟨.error e, c', w⟩) : (attempt r).run c = ⟨.ok (.error e), c', w⟩ := by
  change attempt r c = _
  unfold attempt
  rw [show r c = _ from h]

/-- Two 16-bit words in a row are the header of an element that stands at the cursor. -/
theorem peekHeader?_of_run {c c₁ c₂ : Cursor} {code length : UInt16} {w₁ w₂ : Nat}
    (hcode : u16.run c = ⟨.ok code, c₁, w₁⟩) (hlength : u16.run c₁ = ⟨.ok length, c₂, w₂⟩) :
    Bytes.peekHeader? c.rest = some (code, length) ∧ c₂ = c.advance 4 := by
  obtain ⟨-, rfl, rfl⟩ := of_run_word hcode
  obtain ⟨hsize, rfl, rfl⟩ := of_run_word hlength
  refine ⟨?_, Cursor.advance_advance c 2 2⟩
  rw [← Cursor.length_rest_eq_remaining, Cursor.rest_advance] at hsize
  rw [Cursor.rest_advance]
  generalize c.rest = ahead at hsize ⊢
  rcases ahead with _ | ⟨b₀, _ | ⟨b₁, _ | ⟨b₂, _ | ⟨b₃, ahead⟩⟩⟩⟩
  case cons.cons.cons.cons => rfl
  all_goals
    simp only [List.length_drop, List.length_nil, List.length_cons] at hsize
    omega

/-! ## Going along -/

/-- All that a reader can give has a property. -/
def Yields (r : Reader α) (P : α → Prop) : Prop :=
  ∀ ⦃c a⦄, (r.run c).result = .ok a → P a

namespace Yields

variable {P : α → Prop} {Q : β → Prop}

protected theorem pure {a : α} (h : P a) : Yields (pure a) P := by
  intro c a' hrun
  rw [run_pure] at hrun
  cases hrun
  exact h

/-- A value that is computed, and not read. -/
protected theorem lift {x : Except Error α} (h : ∀ a, x = .ok a → P a) : Yields (lift x) P := by
  intro c a hrun
  exact h a hrun

/-- The next reader is given what the first one can give. -/
protected theorem bind {r : Reader α} {f : α → Reader β} (hr : Yields r P)
    (hf : ∀ a, P a → Yields (f a) Q) : Yields (r >>= f) Q := by
  intro c b hrun
  obtain ⟨a, c', w, hfirst, hsecond⟩ := exists_of_run_bind hrun
  have ha : P a := hr (congrArg Outcome.result hfirst)
  exact hf a ha hsecond

/-- The next reader does not depend on what the first one gives. -/
protected theorem after {r : Reader α} {f : α → Reader β} (hf : ∀ a, Yields (f a) Q) :
    Yields (r >>= f) Q := by
  have hr : Yields r fun _ => True := by
    intro c a hrun
    trivial
  exact Yields.bind hr fun a _ => hf a

/-- As many values as were asked for, one after the other. -/
protected theorem times {r : Reader α} (hr : Yields r P) (n : Nat) :
    Yields (times r n) fun as => as.length = n ∧ ∀ a ∈ as, P a := by
  induction n with
  | zero => exact .pure ⟨rfl, fun a ha => absurd ha List.not_mem_nil⟩
  | succ n ih =>
    refine .bind hr fun a ha => .bind ih fun as has => .pure ⟨congrArg (· + 1) has.1, ?_⟩
    exact List.forall_mem_cons.mpr ⟨ha, has.2⟩

end Yields

/-! ## Errors -/

/-- Two readers in a row give up if the first one does, or the second one behind it. -/
theorem cases_of_run_bind_error {r : Reader α} {f : α → Reader β} {c : Cursor} {e : Error}
    (h : ((r >>= f).run c).result = .error e) :
    (r.run c).result = .error e ∨
      ∃ a c' w, r.run c = ⟨.ok a, c', w⟩ ∧ ((f a).run c').result = .error e := by
  rcases hr : r.run c with ⟨e' | a, c', w⟩
  · rw [run_bind_of_error hr] at h
    cases h
    exact Or.inl rfl
  · rw [run_bind_of_ok hr] at h
    exact Or.inr ⟨a, c', w, rfl, h⟩

/-- All errors that a reader can give up with have a property. -/
def Refuses (r : Reader α) (P : Error → Prop) : Prop :=
  ∀ ⦃c e⦄, (r.run c).result = .error e → P e

namespace Refuses

variable {P : Error → Prop}

protected theorem pure (a : α) : Refuses (pure a) P := by
  intro c e h
  rw [run_pure] at h
  cases h

protected theorem bind {r : Reader α} {f : α → Reader β} (hr : Refuses r P)
    (hf : ∀ a, Refuses (f a) P) : Refuses (r >>= f) P := by
  intro c e h
  rcases cases_of_run_bind_error h with h | ⟨a, c', w, -, h⟩
  · exact hr h
  · exact hf a h

/-- Bytes that are not there are input that ended too early. -/
protected theorem exactly (n : Nat) : Refuses (exactly n) (·.isTruncation = true) := by
  intro c e h
  by_cases hn : n ≤ c.remaining
  · rw [run_exactly_of_le hn] at h
    cases h
  · rw [run_exactly_of_lt (Nat.lt_of_not_le hn)] at h
    cases h
    rfl

/-- So are words. -/
protected theorem word (n : Nat) (ofBytes : Bytes → α) :
    Refuses (bytes n >>= fun x => pure (ofBytes x)) (·.isTruncation = true) :=
  .bind (.bind (.exactly n) fun _ => .pure _) fun _ => .pure _

end Refuses
end Reader
end OpenFlow
