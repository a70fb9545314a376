import OpenFlow.Proofs.Wire.Agree
import OpenFlow.Wire.Message

/-!
# Decoding what was encoded

A value whose writer and reader agree is decoded from its wire form, whatever follows it,
and takes exactly the bytes of its wire form.
-/

namespace OpenFlow
namespace Message

variable {α : Type} [Message α] {ctx : Context} {a : α} {n : Nat}

/-- Decoding gives the value that is read, and the place where reading stops. -/
theorem decode_of_run {b : Bytes} {c : Cursor} {w : Nat}
    (h : (read ctx : Reader α).run (Cursor.start b) = ⟨.ok a, c, w⟩) :
    decode ctx b = .ok (a, c.pos) := by
  unfold decode
  rw [h]
  rfl

/-- Decoding fails as reading does. -/
theorem decode_of_result_eq_error {b : Bytes} {e : Error}
    (h : ((read ctx : Reader α).run (Cursor.start b)).result = .error e) :
    (decode ctx b : Except Error (α × Nat)) = .error e := by
  unfold decode
  simp only [h]
  rfl

/-- What a writer that agrees with the reader of a value has written decodes to this value. -/
theorem decode_of_encode {w : Writer} {b s : Bytes} (h : ∀ c, Agree w (read ctx) c n s a)
    (hb : w.encode = .ok b) : decode ctx (b ++ s) = .ok (a, n) := by
  have hrun := (h (Cursor.start (b ++ s))).run_eq hb (Cursor.Faces.start _)
  rw [decode_of_run hrun]
  change Except.ok (a, 0 + n) = _
  rw [Nat.zero_add]

/-- A value whose two sides agree has a wire form, and the wire form decodes to it. -/
theorem decode_of_agree
    (h : ∀ c tail, Agree (write a) (read ctx) c n tail a) :
    ∃ b, encode a = .ok b ∧ b.length = n ∧ ∀ s, decode ctx (b ++ s) = .ok (a, n) := by
  obtain ⟨b, hb, hlen⟩ := (h (Cursor.start []) []).spans
  exact ⟨b, hb, hlen, fun s => decode_of_encode (fun c => h c s) hb⟩

/-- The same from a given wire form. -/
theorem decode_append_of_agree (h : ∀ c tail, Agree (write a) (read ctx) c n tail a) {b : Bytes}
    (hb : encode a = .ok b) (s : Bytes) : decode ctx (b ++ s) = .ok (a, b.length) := by
  obtain ⟨b', hb', hlen, hdecode⟩ := decode_of_agree h
  rw [hb] at hb'
  obtain rfl := Except.ok.inj hb'
  rw [hlen]
  exact hdecode s

end Message
end OpenFlow
