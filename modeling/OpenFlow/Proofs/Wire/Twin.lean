import OpenFlow.Proofs.Wire.Yields
import OpenFlow.Wire.Text

/-!
# Reading the same bytes in two places

A reader that looks at so many bytes only, and passes just these, gives the same wherever they
stand: in another buffer, at another position, and whatever lies behind them.  Where the
buffer ends before that, the reader is held back to its end.  `Reader.Twin` says so for two
readers at two cursors, since a reader that looks where it stands goes on as two different
ones.  Some readers pass fewer bytes than they may look at, and how many may depend on the
bytes; `Reader.Within` says that they look at no more.  Both have one rule for each way of
putting readers together.

Main definitions:

* `Cursor.Alike`: the same next bytes, so many of them, at two cursors.
* `Reader.Twin`: two readers that give the same of the next bytes, and pass them.
* `Reader.Local`: a reader that is its own twin.
* `Reader.Within`: a reader that looks at the next bytes only.
* `Reader.Stays`: a reader that looks at no bytes, and stays where it is.
-/

namespace OpenFlow

namespace Cursor

/-- Two cursors inside of their buffers have the same next `n` bytes, or the same fewer ones. -/
structure Alike (n : Nat) (c c' : Cursor) : Prop where
  pos_le : c.pos ≤ c.size
  pos_le' : c'.pos ≤ c'.size
  take_rest : c.rest.take n = c'.rest.take n

namespace Alike

variable {m n : Nat} {c c' : Cursor}

theorem refl (n : Nat) (h : c.pos ≤ c.size) : Alike n c c := ⟨h, h, rfl⟩

theorem mono (h : Alike n c c') (hm : m ≤ n) : Alike m c c' where
  pos_le := h.pos_le
  pos_le' := h.pos_le'
  take_rest := by
    rw [← Nat.min_eq_left hm, ← List.take_take, ← List.take_take, h.take_rest]

/-- Where the first bytes have been passed, the others are the same. -/
theorem advanceWithin (h : Alike (m + n) c c') :
    Alike n (c.advanceWithin m) (c'.advanceWithin m) where
  pos_le := Nat.min_le_right _ _
  pos_le' := Nat.min_le_right _ _
  take_rest := by
    rw [rest_advanceWithin, rest_advanceWithin, List.take_drop, List.take_drop, h.take_rest]

/-- As many bytes are left, up to `n`. -/
theorem min_remaining_eq (h : Alike n c c') : min n c.remaining = min n c'.remaining := by
  have hlen := congrArg List.length h.take_rest
  rwa [List.length_take, List.length_take, length_rest_eq_remaining,
    length_rest_eq_remaining] at hlen

end Alike

/-- Passing bytes and then more is passing both. -/
theorem advanceWithin_advanceWithin (c : Cursor) (m n : Nat) :
    (c.advanceWithin m).advanceWithin n = c.advanceWithin (m + n) := by
  ext1
  · change min (min (c.pos + m) c.size + n) c.size = min (c.pos + (m + n)) c.size
    omega
  · rfl
  · exact List.drop_drop

theorem advanceWithin_zero {c : Cursor} (h : c.pos ≤ c.size) : c.advanceWithin 0 = c := by
  rw [advanceWithin_eq_advance h, advance_zero]

theorem advanceWithin_of_le_remaining {c : Cursor} {n : Nat} (hc : c.pos ≤ c.size)
    (h : n ≤ c.remaining) : c.advanceWithin n = c.advance n := by
  refine advanceWithin_eq_advance ?_
  unfold remaining at h
  omega

end Cursor

namespace Reader

variable {α β : Type} {m n : Nat} {c c' : Cursor}

/-! ## Twins -/

/-- Where the next `n` bytes are the same, and the first reader gives a value, the second one gives
it too, with as many warnings, and both pass these bytes. -/
def Twin (n : Nat) (r r' : Reader α) (c c' : Cursor) : Prop :=
  Cursor.Alike n c c' → ∀ a, (r.run c).result = .ok a → ∃ w,
    r.run c = ⟨.ok a, c.advanceWithin n, w⟩ ∧ r'.run c' = ⟨.ok a, c'.advanceWithin n, w⟩

/-- A reader gives the same value wherever the next `n` bytes are the same, and passes them. -/
def Local (n : Nat) (r : Reader α) : Prop := ∀ c c', Twin n r r c c'

namespace Twin

variable {r r' : Reader α} {f f' : α → Reader β}

theorem of_size_eq (h : Twin m r r' c c') (hmn : m = n) : Twin n r r' c c' := hmn ▸ h

/-- That the bytes are the same, and that a value is given, may be used along the way. -/
theorem of_run (h : Cursor.Alike n c c' → ∀ a, (r.run c).result = .ok a → Twin n r r' c c') :
    Twin n r r' c c' := by
  intro halike a ha
  exact h halike a ha halike a ha

protected theorem pure (a : α) : Twin 0 (pure a) (pure a) c c' := by
  intro h b hb
  cases hb
  exact ⟨0, congrArg (Outcome.mk (.ok a) · 0) (Cursor.advanceWithin_zero h.pos_le).symm,
    congrArg (Outcome.mk (.ok a) · 0) (Cursor.advanceWithin_zero h.pos_le').symm⟩

/-- Readers that give up say nothing. -/
protected theorem fail (e : Error) : Twin n (fail e) r' c c' := by
  intro h a ha
  cases ha

/-- The next readers are given the value of the first ones, and stand behind their bytes. -/
protected theorem bind (hr : Twin m r r' c c')
    (hf : ∀ a w, r.run c = ⟨.ok a, c.advanceWithin m, w⟩ →
      Twin n (f a) (f' a) (c.advanceWithin m) (c'.advanceWithin m)) :
    Twin (m + n) (r >>= f) (r' >>= f') c c' := by
  intro h b hb
  obtain ⟨a, c₁, w₁, hrun, hnext⟩ := exists_of_run_bind hb
  obtain ⟨v, hr₁, hr₂⟩ := hr (h.mono (Nat.le_add_right m n)) a (congrArg Outcome.result hrun)
  cases hrun.symm.trans hr₁
  obtain ⟨w, hf₁, hf₂⟩ := hf a w₁ hr₁ h.advanceWithin b hnext
  refine ⟨w₁ + w, ?_, ?_⟩
  · rw [run_bind_of_ok hr₁, hf₁, Cursor.advanceWithin_advanceWithin]
  · rw [run_bind_of_ok hr₂, hf₂, Cursor.advanceWithin_advanceWithin]

/-- The first reader is its own twin, and what it gives does not matter. -/
protected theorem after {r : Reader α} (hr : Local m r)
    (hf : ∀ a, Twin n (f a) (f' a) (c.advanceWithin m) (c'.advanceWithin m)) :
    Twin (m + n) (r >>= f) (r >>= f') c c' :=
  Twin.bind (hr c c') fun a _ _ => hf a

/-- The last value is only wrapped. -/
protected theorem map {g : α → β} (hr : Twin n r r' c c') :
    Twin n (r >>= fun a => pure (g a)) (r' >>= fun a => pure (g a)) c c' :=
  Twin.bind hr fun a _ _ => Twin.pure (g a)

/-- Each reader looks where it stands. -/
protected theorem cursor {g g' : Cursor → Reader β} (h : Twin n (g c) (g' c') c c') :
    Twin n (cursor >>= g) (cursor >>= g') c c' := by
  intro halike b hb
  rw [run_cursor_bind] at hb
  rw [run_cursor_bind, run_cursor_bind]
  exact h halike b hb

end Twin

namespace Local

variable {r : Reader α} {f : α → Reader β}

protected theorem pure (a : α) : Local 0 (pure a) := fun _ _ => .pure a

protected theorem bind (hr : Local m r) (hf : ∀ a, Local n (f a)) : Local (m + n) (r >>= f) :=
  fun _ _ => .after hr fun a => hf a _ _

protected theorem map {g : α → β} (hr : Local n r) : Local n (r >>= fun a => pure (g a)) :=
  fun c c' => .map (hr c c')

protected theorem exactly (n : Nat) : Local n (exactly n) := by
  intro c c' h bs hbs
  by_cases hn : n ≤ c.remaining
  · have hn' : n ≤ c'.remaining := by
      have hmin := h.min_remaining_eq
      omega
    rw [run_exactly_of_le hn] at hbs
    cases hbs
    refine ⟨0, ?_, ?_⟩
    · rw [run_exactly_of_le hn, Cursor.advanceWithin_of_le_remaining h.pos_le hn]
    · rw [run_exactly_of_le hn', Cursor.advanceWithin_of_le_remaining h.pos_le' hn']
      simp only [h.take_rest]
  · rw [run_exactly_of_lt (Nat.lt_of_not_le hn)] at hbs
    cases hbs

protected theorem bytes (n : Nat) : Local n (bytes n) := .map (.exactly n)

protected theorem u8 : Local 1 u8 := .map (.bytes 1)

protected theorem u16 : Local 2 u16 := .map (.bytes 2)

protected theorem u32 : Local 4 u32 := .map (.bytes 4)

protected theorem u64 : Local 8 u64 := .map (.bytes 8)

protected theorem skip (n : Nat) : Local n (skip n) := by
  intro c c' h u hu
  have hrun (d : Cursor) (hd : d.pos + n ≤ d.size) : (skip n).run d = ⟨.ok (), d.advance n, 0⟩ :=
    if_pos hd
  by_cases hn : c.pos + n ≤ c.size
  · have hn' : c'.pos + n ≤ c'.size := by
      have hmin := h.min_remaining_eq
      have hle := h.pos_le'
      unfold Cursor.remaining at hmin
      omega
    refine ⟨0, ?_, ?_⟩
    · rw [hrun c hn, Cursor.advanceWithin_eq_advance hn]
    · rw [hrun c' hn', Cursor.advanceWithin_eq_advance hn']
  · change (if c.pos + n ≤ c.size then _ else _ : Outcome Unit).result = _ at hu
    rw [if_neg hn] at hu
    cases hu

protected theorem text (width : Nat) (shortage : Shortage) :
    Local width (text width shortage) := by
  intro c c' h
  have hmin := h.min_remaining_eq
  have htwin : Twin width (text width shortage) (text width shortage) c c' := by
    refine .cursor ?_
    by_cases hwidth : width ≤ c.remaining
    · have hwidth' : width ≤ c'.remaining := by omega
      rw [if_pos hwidth, if_pos hwidth']
      exact Twin.map (Local.bytes width c c')
    · rw [if_neg hwidth]
      exact .fail _
  exact htwin h

protected theorem times (hr : Local m r) (n : Nat) : Local (m * n) (times r n) := by
  induction n with
  | zero => exact .pure []
  | succ n ih =>
    have hrest : Local (m + m * n) (times r (n + 1)) := .bind hr fun a => .map ih
    rwa [Nat.mul_succ, Nat.add_comm]

end Local

/-! ## Readers that pass fewer bytes than they may look at -/

/-- A reader gives the same value wherever the next `n` bytes are the same, and passes at most
these. -/
def Within (n : Nat) (r : Reader α) : Prop :=
  ∀ c c', Cursor.Alike n c c' → ∀ a, (r.run c).result = .ok a → ∃ k ≤ n, ∃ w,
    r.run c = ⟨.ok a, c.advanceWithin k, w⟩ ∧ r.run c' = ⟨.ok a, c'.advanceWithin k, w⟩

theorem Local.within {r : Reader α} (hr : Local n r) : Within n r := by
  intro c c' h a ha
  obtain ⟨w, hrun⟩ := hr c c' h a ha
  exact ⟨n, Nat.le_refl n, w, hrun⟩

namespace Within

variable {r : Reader α} {f : α → Reader β}

theorem mono (hr : Within m r) (hmn : m ≤ n) : Within n r := by
  intro c c' h a ha
  obtain ⟨k, hk, hrun⟩ := hr c c' (h.mono hmn) a ha
  exact ⟨k, Nat.le_trans hk hmn, hrun⟩

protected theorem pure (a : α) : Within n (pure a) :=
  mono (Local.pure a).within (Nat.zero_le n)

protected theorem lift (x : Except Error α) : Within n (lift x) := by
  cases x with
  | ok a => exact .pure a
  | error e =>
    intro c c' h a ha
    cases ha

protected theorem bind (hr : Within m r) (hf : ∀ a, Within n (f a)) :
    Within (m + n) (r >>= f) := by
  intro c c' h b hb
  obtain ⟨a, c₁, w₁, hrun, hnext⟩ := exists_of_run_bind hb
  obtain ⟨j, hj, v, hr₁, hr₂⟩ :=
    hr c c' (h.mono (Nat.le_add_right m n)) a (congrArg Outcome.result hrun)
  cases hrun.symm.trans hr₁
  have halike : Cursor.Alike n (c.advanceWithin j) (c'.advanceWithin j) :=
    (h.mono (Nat.add_le_add_right hj n)).advanceWithin
  obtain ⟨k, hk, w, hf₁, hf₂⟩ := hf a _ _ halike b hnext
  refine ⟨j + k, Nat.add_le_add hj hk, w₁ + w, ?_, ?_⟩
  · rw [run_bind_of_ok hr₁, hf₁, Cursor.advanceWithin_advanceWithin]
  · rw [run_bind_of_ok hr₂, hf₂, Cursor.advanceWithin_advanceWithin]

end Within

/-- Readers that go on from the end of the bytes pass just these, wherever they have been. -/
theorem Twin.moveTo {r : Reader α} {g : α → β} {d d' : Cursor}
    (hr : Cursor.Alike n c c' → ∀ a, (r.run c).result = .ok a →
      ∃ e e' w, r.run c = ⟨.ok a, e, w⟩ ∧ r.run c' = ⟨.ok a, e', w⟩)
    (hd : d = c.advanceWithin n) (hd' : d' = c'.advanceWithin n) :
    Twin n (r >>= fun a => Reader.moveTo d >>= fun _ => pure (g a))
      (r >>= fun a => Reader.moveTo d' >>= fun _ => pure (g a)) c c' := by
  subst hd hd'
  intro h b hb
  obtain ⟨a, c₁, w₁, hrun, hlast⟩ := exists_of_run_bind hb
  obtain ⟨e, e', w, hr₁, hr₂⟩ := hr h a (congrArg Outcome.result hrun)
  cases hlast
  refine ⟨w, ?_, ?_⟩
  · rw [run_bind_of_ok hr₁]
    rfl
  · rw [run_bind_of_ok hr₂]
    rfl

theorem Twin.of_within {r : Reader α} (hr : Within n r) {g : α → β} {d d' : Cursor}
    (hd : d = c.advanceWithin n) (hd' : d' = c'.advanceWithin n) :
    Twin n (r >>= fun a => Reader.moveTo d >>= fun _ => pure (g a))
      (r >>= fun a => Reader.moveTo d' >>= fun _ => pure (g a)) c c' := by
  refine .moveTo (fun halike a ha => ?_) hd hd'
  obtain ⟨k, -, w, hrun, hrun'⟩ := hr c c' halike a ha
  exact ⟨_, _, w, hrun, hrun'⟩

/-! ## Readers that look at no bytes -/

/-- A reader that does the same wherever it stands, and stays there. -/
def Stays (r : Reader α) : Prop :=
  ∀ c c', r.run c' = ⟨(r.run c).result, c', (r.run c).warnings⟩

namespace Stays

variable {r : Reader α} {f : α → Reader β}

protected theorem pure (a : α) : Stays (pure a) := fun _ _ => rfl

protected theorem fail (e : Error) : Stays (fail e : Reader α) := fun _ _ => rfl

/-- A buffer of its own is read from its start. -/
protected theorem within (span : Bytes) (r : Reader α) : Stays (within span r) := fun _ _ => rfl

protected theorem attempt (hr : Stays r) : Stays (attempt r) := by
  intro c c'
  have hrun := hr c c'
  rcases hc : r.run c with ⟨error | a, d, w⟩
  · rw [hc] at hrun
    rw [run_attempt_of_error hc, run_attempt_of_error hrun]
  · rw [hc] at hrun
    rw [run_attempt_of_ok hc, run_attempt_of_ok hrun]

protected theorem bind (hr : Stays r) (hf : ∀ a, Stays (f a)) : Stays (r >>= f) := by
  intro c c'
  have hrun := hr c c'
  rcases hc : r.run c with ⟨error | a, d, w⟩
  · rw [hc] at hrun
    rw [run_bind_of_error hc, run_bind_of_error hrun]
  · rw [hc] at hrun
    rw [run_bind_of_ok hc, run_bind_of_ok hrun, hf a d c']

/-- It may be said to look at any bytes. -/
theorem within_zero (hr : Stays r) : Within n r := by
  intro c c' h a ha
  refine ⟨0, Nat.zero_le n, (r.run c).warnings, ?_, ?_⟩
  · rw [Cursor.advanceWithin_zero h.pos_le, ← ha]
    exact hr c c
  · rw [Cursor.advanceWithin_zero h.pos_le', ← ha]
    exact hr c c'

end Stays
end Reader
end OpenFlow
