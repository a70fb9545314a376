import OpenFlow.Proofs.Element.Step
import OpenFlow.Proofs.Wire.Refuses
import OpenFlow.Proofs.Wire.Twin

/-!
# A reader that follows another one

Two readers at one cursor, the second of which is meant to do what the first one does, up to a
change of the value.  `Reader.Follows` says that it does so wherever the first one gives a value,
and that it goes to the same place.  Where the first one fails, the second one need not, but the
errors that it may make good are named.

That both give a value is not enough to put such readers together.  A list ends in front of an
element that fails for want of input, so where the first reader fails in this way the second one
has to do so too; else it would go on behind the end of the other list.

Main definition:

* `Reader.Follows`: the second reader gives what the first one gives, changed by a function.

Main statements:

* `Reader.Follows.bind`: two readers in a row.
* `Reader.Follows.attempt_within`: readers with a buffer of their own, whose errors are values.
-/

namespace OpenFlow
namespace Reader

variable {α β γ δ : Type} {P : Error → Prop}

/-- Wherever the first reader gives a value, the second one gives the image of it and goes to the
same cursor; and where the first one fails, the error is one of those named, or the second one
fails too, and for want of input if the first one does. -/
structure Follows (P : Error → Prop) (g : α → β) (r : Reader α) (r' : Reader β) : Prop where
  run_of_ok {c c' : Cursor} {a : α} {w : Nat} (h : r.run c = ⟨.ok a, c', w⟩) :
    ∃ w', r'.run c = ⟨.ok (g a), c', w'⟩
  result_of_error {c : Cursor} {e : Error} (h : (r.run c).result = .error e) :
    P e ∨ ∃ e', (r'.run c).result = .error e' ∧ e'.isTruncation = e.isTruncation

namespace Follows

variable {g : α → β} {h : γ → δ} {r : Reader α} {r' : Reader β}

protected theorem refl (r : Reader α) : Follows P id r r where
  run_of_ok h := ⟨_, h⟩
  result_of_error h := Or.inr ⟨_, h, rfl⟩

protected theorem pure {a : α} {b : β} (hab : g a = b) : Follows P g (pure a) (pure b) := by
  subst hab
  constructor
  · intro c c' a' w hrun
    cases hrun
    exact ⟨0, rfl⟩
  · intro c e herror
    cases herror

/-- An error that is named asks for nothing. -/
protected theorem fail {e : Error} (he : P e) (r' : Reader β) : Follows P g (fail e) r' := by
  constructor
  · intro c c' a w hrun
    cases hrun
  · intro c e' herror
    cases herror
    exact Or.inl he

protected theorem fail_fail {e e' : Error} (he : e'.isTruncation = e.isTruncation) :
    Follows P g (fail e) (fail e') := by
  constructor
  · intro c c' a w hrun
    cases hrun
  · intro c e'' herror
    cases herror
    exact Or.inr ⟨e', rfl, he⟩

/-- The next readers are given a value that the first one can give, and its image. -/
theorem bind_of_yields {f : α → Reader γ} {f' : β → Reader δ} {R : α → Prop}
    (hr : Follows P g r r') (hyields : r.Yields R)
    (hf : ∀ a, R a → Follows P h (f a) (f' (g a))) : Follows P h (r >>= f) (r' >>= f') := by
  constructor
  · intro c c'' b w hrun
    obtain ⟨a, c', w₁, w₂, hfirst, hsecond⟩ := of_run_bind hrun
    have ha : R a := hyields (congrArg Outcome.result hfirst)
    obtain ⟨v₁, hfirst⟩ := hr.run_of_ok hfirst
    obtain ⟨v₂, hsecond⟩ := (hf a ha).run_of_ok hsecond
    exact ⟨v₁ + v₂, by rw [run_bind_of_ok hfirst, hsecond]⟩
  · intro c e herror
    rcases cases_of_run_bind_error herror with hfirst | ⟨a, c', w, hfirst, hsecond⟩
    · rcases hr.result_of_error hfirst with hnamed | ⟨e', hfirst', hsame⟩
      · exact Or.inl hnamed
      · rcases hrun : r'.run c with ⟨result, d, v⟩
        rw [hrun] at hfirst'
        obtain rfl : result = .error e' := hfirst'
        exact Or.inr ⟨e', by rw [run_bind_of_error hrun], hsame⟩
    · have ha : R a := hyields (congrArg Outcome.result hfirst)
      obtain ⟨v, hfirst'⟩ := hr.run_of_ok hfirst
      rcases (hf a ha).result_of_error hsecond with hnamed | ⟨e', hsecond', hsame⟩
      · exact Or.inl hnamed
      · exact Or.inr ⟨e', by rw [run_bind_of_ok hfirst', hsecond'], hsame⟩

protected theorem bind {f : α → Reader γ} {f' : β → Reader δ} (hr : Follows P g r r')
    (hf : ∀ a, Follows P h (f a) (f' (g a))) : Follows P h (r >>= f) (r' >>= f') :=
  bind_of_yields hr (R := fun _ => True) (fun _ _ _ => trivial) fun a _ => hf a

/-- The first reader is the same in both. -/
protected theorem after {r : Reader α} {f : α → Reader γ} {f' : α → Reader δ}
    (hf : ∀ a, Follows P h (f a) (f' a)) : Follows P h (r >>= f) (r >>= f') :=
  .bind (.refl r) hf

/-- The last values are only wrapped. -/
protected theorem map {u : α → γ} {u' : β → δ} (hr : Follows P g r r')
    (hu : ∀ a, h (u a) = u' (g a)) :
    Follows P h (r >>= fun a => pure (u a)) (r' >>= fun b => pure (u' b)) :=
  .bind hr fun a => .pure (hu a)

protected theorem ite {p : Prop} [Decidable p] {s : Reader α} {s' : Reader β}
    (hr : Follows P g r r') (hs : Follows P g s s') :
    Follows P g (if p then r else s) (if p then r' else s') := by
  split
  · exact hr
  · exact hs

/-- Readers with a buffer of their own, whose errors are values, are decided by what they give. -/
protected theorem attempt_within {f : Except Error α → Reader γ} {f' : Except Error β → Reader δ}
    (span : Bytes) (hf : Follows P h (f (r.run (Cursor.start span)).result)
      (f' (r'.run (Cursor.start span)).result)) :
    Follows P h (attempt (within span r) >>= f) (attempt (within span r') >>= f') := by
  have hattempt {η ζ : Type} (s : Reader η) (k : Except Error η → Reader ζ) (c : Cursor) :
      (attempt (within span s) >>= k).run c = _ :=
    run_bind_of_ok (run_attempt_within span s c)
  constructor
  · intro c c' b w hrun
    rw [hattempt] at hrun ⊢
    rcases hnext : (f (r.run (Cursor.start span)).result).run c with ⟨result, d, v⟩
    rw [hnext] at hrun
    cases hrun
    obtain ⟨v', hnext'⟩ := hf.run_of_ok hnext
    rw [hnext']
    exact ⟨_, rfl⟩
  · intro c e herror
    rw [hattempt] at herror ⊢
    exact hf.result_of_error herror

/-- A reader that stays where it is, and only fails with an error that is named, is followed by one
that reads nothing. -/
protected theorem of_stays {r : Reader α} (hstays : r.Stays) (hrefuses : r.Refuses P) (b : β) :
    Follows P (fun _ => b) r (pure b) := by
  constructor
  · intro c c' a w hrun
    have hcursor := congrArg Outcome.cursor (hstays c c)
    rw [hrun] at hcursor
    obtain rfl : c' = c := hcursor
    exact ⟨0, rfl⟩
  · intro c e herror
    exact Or.inl (hrefuses herror)

end Follows
end Reader
end OpenFlow
