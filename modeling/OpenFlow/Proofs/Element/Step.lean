import OpenFlow.Proofs.Element.Family

/-!
# One step of reading a list

Reading the elements of a region looks at the header in front, reads one element from
its span alone, and goes on behind the room that the element takes.  Here is what each
of these steps comes to, one equation for each way it can go.

Main statements:

* `Element.readMembers_eq`: the step, in terms of the header in front.
* `Element.run_readMembers_of_span`: an element is read from its span alone, and what came
  of it decides about the rest.
-/

namespace OpenFlow

namespace Bytes

/-- A header is in front of a string of bytes unless it is too short. -/
theorem peekHeader?_eq_none_iff (bs : Bytes) : peekHeader? bs = none ↔ bs.length < 4 := by
  rcases bs with _ | ⟨b₀, _ | ⟨b₁, _ | ⟨b₂, _ | ⟨b₃, rest⟩⟩⟩⟩
  · simp [peekHeader?]
  · simp [peekHeader?]
  · simp [peekHeader?]
  · simp [peekHeader?]
  · simp [peekHeader?]

end Bytes

/-- Reading a buffer of its own, with the error as a value, never fails and stays where
it is. -/
theorem Reader.run_attempt_within {α : Type} (span : Bytes) (r : Reader α) (c : Cursor) :
    (attempt (within span r)).run c =
      ⟨.ok (r.run (Cursor.start span)).result, c, (r.run (Cursor.start span)).warnings⟩ := by
  change attempt (within span r) c = _
  unfold attempt within run
  rcases r (Cursor.start span) with ⟨_ | _, _, _⟩
  · rfl
  · rfl

namespace Element

variable {ε : Type}

/-- What becomes of a list once its first element was read, or was not. -/
def goOn (rest : Reader (List ε)) : Except Error ε → Reader (List ε)
  | .ok e => do return e :: (← rest)
  | .error e => if e.isTruncation then return [] else Reader.fail e

theorem run_goOn_ok (rest : Reader (List ε)) (e : ε) (c : Cursor) :
    (goOn rest (.ok e)).run c =
      ⟨(rest.run c).result.map (e :: ·), (rest.run c).cursor, (rest.run c).warnings⟩ := by
  change Reader.run (rest >>= fun members => pure (e :: members)) c = _
  rcases h : rest.run c with ⟨_ | members, c', w⟩
  · rw [Reader.run_bind_of_error h]
    rfl
  · rw [Reader.run_bind_of_ok h]
    rfl

theorem run_goOn_truncation (rest : Reader (List ε)) {e : Error} (he : e.isTruncation = true)
    (c : Cursor) : (goOn rest (.error e)).run c = ⟨.ok [], c, 0⟩ := by
  change (if e.isTruncation then pure [] else Reader.fail e : Reader (List ε)).run c = _
  rw [if_pos he]
  rfl

theorem run_goOn_error (rest : Reader (List ε)) {e : Error} (he : e.isTruncation = false)
    (c : Cursor) : (goOn rest (.error e)).run c = ⟨.error e, c, 0⟩ := by
  change (if e.isTruncation then pure [] else Reader.fail e : Reader (List ε)).run c = _
  rw [if_neg (ne_true_of_eq_false he)]
  rfl

variable [Element ε] [Framed ε]

/-- **One step of reading a list**, in terms of the header in front of the region. -/
theorem readMembers_eq (ctx : Context) (allowance : Option Nat) (region : Bytes) :
    (readMembers ctx allowance region : Reader (List ε)) =
      match Bytes.peekHeader? region with
      | none => pure []
      | some (code, declared) =>
        if allowance = some 0 then pure []
        else if declared.toNat < headerSize ε then
          Reader.fail (.malformedHeader
            (.elementLength (family ε) declared.toNat (headerSize ε)))
        else if region.length < declared.toNat then pure []
        else Reader.attempt (Reader.within (region.take declared.toNat)
            (read ctx (blank ctx code declared))) >>=
          goOn (readMembers ctx (allowance.map (· - 1))
            (region.drop (occupied ε declared.toNat))) := by
  rcases region with _ | ⟨b₀, _ | ⟨b₁, _ | ⟨b₂, _ | ⟨b₃, body⟩⟩⟩⟩
  · simp [readMembers, Bytes.peekHeader?]
  · simp [readMembers, Bytes.peekHeader?]
  · simp [readMembers, Bytes.peekHeader?]
  · simp [readMembers, Bytes.peekHeader?]
  · rw [readMembers]
    simp only [Bytes.peekHeader?]
    generalize UInt16.ofNat (Bytes.value [b₂, b₃]) = declared
    by_cases hlimit : allowance = some 0
    · rw [if_pos hlimit, if_pos hlimit]
    rw [if_neg hlimit, if_neg hlimit]
    by_cases hlow : declared.toNat < headerSize ε
    · rw [if_pos hlow, if_pos hlow]
    rw [if_neg hlow, if_neg hlow]
    have hlen : ((b₀ :: b₁ :: b₂ :: b₃ :: body).take declared.toNat).length < declared.toNat ↔
        (b₀ :: b₁ :: b₂ :: b₃ :: body).length < declared.toNat := by
      rw [List.length_take]
      omega
    -- The room of an element covers its header, so dropping it drops the header too.
    have hroom : (b₀ :: b₁ :: b₂ :: b₃ :: body).drop (occupied ε declared.toNat) =
        body.drop (occupied ε declared.toNat - commonHeaderSize) := by
      have hheader : commonHeaderSize ≤ occupied ε declared.toNat :=
        Nat.le_trans (Framed.commonHeaderSize_le (ε := ε))
          (Nat.le_trans (Nat.le_of_not_lt hlow) (Framed.le_occupied _))
      obtain ⟨k, hk⟩ := Nat.exists_eq_add_of_le hheader
      rw [hk, Nat.add_sub_cancel_left, Nat.add_comm]
      rfl
    simp only [hlen, hroom]
    rfl

section Run

variable {ctx : Context} {allowance : Option Nat} {region : Bytes} {code declared : UInt16}
  {c : Cursor}

/-- An element of a type code, read from its own span. -/
def readSpan (ctx : Context) (code declared : UInt16) (span : Bytes) : Outcome ε :=
  (read ctx (blank ctx code declared)).run (Cursor.start span)

/-- A list ends where no header fits any more. -/
theorem run_readMembers_of_length_lt (h : region.length < 4) :
    (readMembers ctx allowance region : Reader (List ε)).run c = ⟨.ok [], c, 0⟩ := by
  rw [readMembers_eq, (Bytes.peekHeader?_eq_none_iff region).mpr h]
  rfl

/-- A header of too small a length is refused. -/
theorem run_readMembers_of_malformed (hpeek : Bytes.peekHeader? region = some (code, declared))
    (hallow : allowance ≠ some 0) (h : declared.toNat < headerSize ε) :
    (readMembers ctx allowance region : Reader (List ε)).run c =
      ⟨.error (.malformedHeader (.elementLength (family ε) declared.toNat (headerSize ε))), c,
        0⟩ := by
  rw [readMembers_eq, hpeek]
  simp only [if_neg hallow, if_pos h]
  rfl

/-- A list ends where an element would run past the region. -/
theorem run_readMembers_of_overrun (hpeek : Bytes.peekHeader? region = some (code, declared))
    (hallow : allowance ≠ some 0) (h : headerSize ε ≤ declared.toNat)
    (hover : region.length < declared.toNat) :
    (readMembers ctx allowance region : Reader (List ε)).run c = ⟨.ok [], c, 0⟩ := by
  rw [readMembers_eq, hpeek]
  simp only [if_neg hallow, if_neg (Nat.not_lt.mpr h), if_pos hover]
  rfl

/-- Where an element lies inside the region, it is read from its span alone, and what came
of it decides about the rest. -/
theorem run_readMembers_of_span (hpeek : Bytes.peekHeader? region = some (code, declared))
    (hallow : allowance ≠ some 0) (h : headerSize ε ≤ declared.toNat)
    (hfits : declared.toNat ≤ region.length) {outcome : Outcome ε}
    (hspan : readSpan ctx code declared (region.take declared.toNat) = outcome) :
    (readMembers ctx allowance region : Reader (List ε)).run c =
      let rest := (goOn (readMembers ctx (allowance.map (· - 1))
        (region.drop (occupied ε declared.toNat))) outcome.result).run c
      ⟨rest.result, rest.cursor, outcome.warnings + rest.warnings⟩ := by
  rw [readMembers_eq, hpeek]
  simp only [if_neg hallow, if_neg (Nat.not_lt.mpr h), if_neg (Nat.not_lt.mpr hfits)]
  rw [Reader.run_bind_of_ok (Reader.run_attempt_within _ _ c)]
  rw [← hspan]
  rfl

end Run

/-! ## The list -/

omit [Framed ε] in
/-- What reading a list does with its members. -/
theorem run_readList (ctx : Context) (length : Nat) (c : Cursor) :
    (readList ctx length : Reader (List ε)).run c =
      let members := (readMembers ctx ctx.elementLimit (c.rest.take length) :
        Reader (List ε)).run c
      match members.result with
      | .ok es => ⟨.ok es, c.advanceWithin length, members.warnings⟩
      | .error e => ⟨.error e, members.cursor, members.warnings⟩ := by
  unfold readList
  rw [Reader.run_cursor_bind]
  rcases h : (readMembers ctx ctx.elementLimit (c.rest.take length) : Reader (List ε)).run c
    with ⟨_ | es, c', w⟩
  · rw [Reader.run_bind_of_error h]
  · rw [Reader.run_bind_of_ok h]
    rfl

end Element
end OpenFlow
