import OpenFlow.Proofs.Wire.Yields
import OpenFlow.Wire.Text

/-!
# What readers fail with

Most readers fail for one reason only: the input ends too early.  These are the primitive
readers, and all that is put together from readers of this kind.  They are a class, so that
for a record of a fixed layout the class system finds it out.  For the others
`Reader.Refuses` has a few more rules; where a reader may fail for what it was given, and is
given what another reader can give, this is the property of `Reader.Yields`.

Main definitions:

* `Reader.Truncating`: readers that only fail where the input ends too early.

Main statements:

* `Reader.Refuses.bind_of_yields`: two readers in a row.
* `Reader.Refuses.of_truncating`: what is put together from the class.
-/

namespace OpenFlow
namespace Reader

variable {α β : Type} {P Q : Error → Prop}

namespace Refuses

theorem mono {r : Reader α} (hr : Refuses r P) (h : ∀ e, P e → Q e) : Refuses r Q := by
  intro c e herror
  exact h e (hr herror)

protected theorem fail {e : Error} (h : P e) : Refuses (fail e : Reader α) P := by
  intro c e' herror
  cases herror
  exact h

/-- Two readers in a row, the second of which is given what the first one can give. -/
theorem bind_of_yields {r : Reader α} {f : α → Reader β} {R : α → Prop} (hr : Refuses r P)
    (hyields : r.Yields R) (hf : ∀ a, R a → Refuses (f a) P) : Refuses (r >>= f) P := by
  intro c e h
  rcases cases_of_run_bind_error h with h | ⟨a, c', w, hrun, h⟩
  · exact hr h
  · exact hf a (hyields (congrArg Outcome.result hrun)) h

/-- An error that is given back as a value is none. -/
protected theorem attempt (r : Reader α) : Refuses (attempt r) P := by
  intro c e h
  rcases hr : r.run c with ⟨error | a, c', w⟩
  · rw [run_attempt_of_error hr] at h
    cases h
  · rw [run_attempt_of_ok hr] at h
    cases h

end Refuses

/-- The errors that are given back as values are those of the reader. -/
theorem Yields.attempt {r : Reader α} (hr : Refuses r P) :
    Yields (attempt r) fun result => ∀ e, result = .error e → P e := by
  intro c result h e herror
  subst herror
  rcases hrun : r.run c with ⟨error | a, c', w⟩
  · rw [run_attempt_of_error hrun] at h
    cases h
    exact hr (congrArg Outcome.result hrun)
  · rw [run_attempt_of_ok hrun] at h
    cases h

/-- Bytes that were asked for are as many as were asked for. -/
theorem yields_bytes (n : Nat) : (bytes n).Yields (·.length = n) :=
  .after fun bs => .pure bs.property

/-! ## Want of input -/

/-- A reader that only fails where the input ends too early. -/
class Truncating (r : Reader α) : Prop where
  refuses : r.Refuses (·.isTruncation = true)

theorem Refuses.of_truncating (r : Reader α) [hr : Truncating r]
    (h : ∀ e : Error, e.isTruncation = true → P e) : r.Refuses P :=
  hr.refuses.mono h

namespace Truncating

instance (a : α) : Truncating (pure a) := ⟨.pure a⟩

instance (r : Reader α) (f : α → Reader β) [hr : Truncating r] [hf : ∀ a, Truncating (f a)] :
    Truncating (r >>= f) := ⟨.bind hr.refuses fun a => (hf a).refuses⟩

instance (n : Nat) : Truncating (exactly n) := ⟨.exactly n⟩

instance (n : Nat) : Truncating (bytes n) :=
  inferInstanceAs (Truncating (exactly n >>= fun bs => pure bs.val))

instance : Truncating u8 :=
  inferInstanceAs (Truncating (bytes 1 >>= fun bs => pure (UInt8.ofNat (Bytes.value bs))))

instance : Truncating u16 :=
  inferInstanceAs (Truncating (bytes 2 >>= fun bs => pure (UInt16.ofNat (Bytes.value bs))))

instance : Truncating u32 :=
  inferInstanceAs (Truncating (bytes 4 >>= fun bs => pure (UInt32.ofNat (Bytes.value bs))))

instance : Truncating u64 :=
  inferInstanceAs (Truncating (bytes 8 >>= fun bs => pure (UInt64.ofNat (Bytes.value bs))))

instance (n : Nat) : Truncating (skip n) where
  refuses c e h := by
    change (if c.pos + n ≤ c.size then _ else _ : Outcome Unit).result = _ at h
    by_cases hn : c.pos + n ≤ c.size
    · rw [if_pos hn] at h
      cases h
    · rw [if_neg hn] at h
      cases h
      rfl

instance : Truncating rest where
  refuses c e h := by cases h

instance : Truncating warn where
  refuses c e h := by cases h

instance : Truncating cursor where
  refuses c e h := by cases h

instance (c : Cursor) : Truncating (moveTo c) where
  refuses c e h := by cases h

/-- As many values as were asked for, one after the other. -/
instance (r : Reader α) [Truncating r] (n : Nat) : Truncating (times r n) := by
  induction n with
  | zero => exact inferInstanceAs (Truncating (pure []))
  | succ n ih => exact inferInstanceAs (Truncating (r >>= fun a => times r n >>= fun as =>
      pure (a :: as)))

instance (p : Prop) [Decidable p] (r r' : Reader α) [Truncating r] [Truncating r'] :
    Truncating (if p then r else r') := by
  split <;> infer_instance

instance (shortage : Shortage) : Truncating (fail (.truncatedInput shortage) : Reader α) :=
  ⟨.fail rfl⟩

instance (width : Nat) (shortage : Shortage) : Truncating (text width shortage) :=
  inferInstanceAs (Truncating (cursor >>= fun c => if width ≤ c.remaining then
    bytes width >>= fun bs => pure (Text.read bs) else fail (.truncatedInput shortage)))

end Truncating
end Reader
end OpenFlow
