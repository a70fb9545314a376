import OpenFlow.Proofs.Match.Errors
import OpenFlow.Proofs.Multipart.Extent

/-!
# A match of fields stays in its frame

Behind the header of a match of fields, reading does not run out of input, whatever the bytes are.
The loop looks for a header only where one fits, and goes on only behind a field that fits: a
field of a known type by the width of the type, and one of an unknown type by the length in its
own header.  Both count the header, so the loop moves on, and neither passes the end.  All that
can go wrong is a field of an unknown type where such fields are refused.

The cursor then goes to the end of the padding, or to the end of the buffer before it.  That is
never a step back, since the fields end where the declared length does, at the latest.  In front
of a field that is refused it stays.

Main statements:

* `Match.FieldsIn.take_passed`: the fields of a region are those of the bytes that are passed.
* `Match.read_framed`: a match of fields does not run out of input, goes to the end of its frame,
  and depends on its own bytes only.
-/

namespace OpenFlow

namespace Match

/-! ## The fields -/

/-- **The fields of a region are those of the bytes that are passed.** -/
theorem FieldsIn.take_passed {ctx : Context} {fields : List OxmField}
    (h : FieldsIn ctx region fields) :
    FieldsIn ctx (region.take (passed ctx.registries.fields region)) fields := by
  induction h with
  | ending hshort =>
    rw [passed_of_peek?_eq_none (OxmHeader.peek?_eq_none_of_length_lt hshort), List.take_zero]
    exact fieldsIn_nil ctx
  | overrun hpeek hpolicy hlong =>
    rw [passed_of_lt hpeek hlong, List.take_zero]
    exact fieldsIn_nil ctx
  | @known front rest header f fields hopens hrest ih =>
    rw [hopens.passed_append, ← List.append_assoc, List.take_length_add_append, List.append_assoc]
    exact .known hopens ih
  | @unknown front skipped rest header fields hpolicy hpeek hlookup hlength hrest ih =>
    have hlen : (front ++ skipped).length = ctx.registries.fields.extent header :=
      hlength.trans (FieldCatalog.extent_of_unknown hlookup).symm
    rw [← List.append_assoc,
      passed_append rest (OxmHeader.peek?_append_of_some hpeek skipped) hlen,
      List.take_length_add_append, List.append_assoc]
    exact .unknown hpolicy hpeek hlookup hlength ih

/-! ## The frame -/

/-- The region of the fields lies in the bytes that the declared length covers. -/
theorem fieldRegion_take (bs : Bytes) (declared : UInt16) :
    fieldRegion (bs.take declared.toNat) declared = fieldRegion bs declared := by
  rw [fieldRegion, fieldRegion, List.drop_take, List.take_take, Nat.min_self]

theorem length_fieldRegion (bs : Bytes) (declared : UInt16) :
    (fieldRegion bs declared).length =
      min (declared.toNat - headerSize) (bs.length - headerSize) := by
  rw [fieldRegion, List.length_take, List.length_drop]

variable {ctx : Context} {declared : UInt16}

/-- The fields end with their region, and the region with the frame or the buffer. -/
theorem passed_le_frame {buf : Bytes} {p : Nat} (catalog : FieldCatalog)
    (hpeek : Bytes.peekHeader? (buf.drop p) = some (oxmCode, declared))
    (hheader : headerSize ≤ declared.toNat) :
    p + headerSize + passed catalog (fieldRegion (buf.drop p) declared) ≤
      min (p + align8 declared.toNat) buf.length := by
  have hpassed := passed_le_length catalog (fieldRegion (buf.drop p) declared)
  have hroom : ¬ (buf.drop p).length < 4 := by
    rw [← Bytes.peekHeader?_eq_none_iff, hpeek]
    exact nofun
  rw [length_fieldRegion, List.length_drop] at hpassed
  rw [List.length_drop] at hroom
  have halign := le_align8 declared.toNat
  change 4 ≤ declared.toNat at hheader
  change _ ≤ min (declared.toNat - 4) (buf.length - p - 4) at hpassed
  change p + 4 + _ ≤ _
  omega

/-- What comes of a match of a declared length at a cursor, from what came of its fields at the
start of a buffer: where a field is refused, the cursor goes as far behind the header. -/
def framed (c : Cursor) (declared : Nat) (found : Outcome (List OxmField)) : Outcome Match :=
  match found.result with
  | .ok fields => ⟨.ok (ofFields fields), c.advanceWithin (align8 declared), found.warnings⟩
  | .error e => ⟨.error e, (c.advance headerSize).advance found.cursor.pos, found.warnings⟩

/-- The fields of a match may be read anywhere. -/
theorem run_read_eq_framed {c : Cursor}
    (hpeek : Bytes.peekHeader? c.rest = some (oxmCode, declared))
    (hheader : headerSize ≤ declared.toNat) :
    (read ctx).run c = framed c declared.toNat
      ((readFields ctx (fieldRegion c.rest declared)).run (Cursor.start [])) := by
  obtain ⟨result, n, w, hrun⟩ := exists_run_readFields ctx (fieldRegion c.rest declared)
  have hhere := hrun (c.advance headerSize)
  have hpos : ((Cursor.start []).advance n).pos = n := Nat.zero_add n
  rw [run_read_of_oxm hpeek hheader, hrun, framed, hpos]
  cases result with
  | error e => rw [Reader.run_bind_of_error hhere]
  | ok fields =>
    rw [Reader.run_bind_of_ok hhere]
    rfl

/-- **A match of fields stays in its frame.**  Once its header is there, reading fails only for a
field of an unknown type that is refused, and so never for want of input.  Where it gives a
match, the cursor goes to the end of the padding, or to the end of the buffer before it; this is
not before the end of the bytes that the fields were read from.  And the bytes that the declared
length covers decide about the outcome, wherever they stand and whatever follows them. -/
theorem read_framed (ctx : Context) (buf : Bytes) (p : Nat) (declared : UInt16)
    (hpeek : Bytes.peekHeader? (buf.drop p) = some (oxmCode, declared))
    (hheader : headerSize ≤ declared.toNat) :
    let outcome := (read ctx).run (Cursor.at buf p)
    let region := fieldRegion (buf.drop p) declared
    let reached := passed ctx.registries.fields region
    (∀ e, outcome.result = .error e → ctx.Rejects e) ∧
    (∀ m, outcome.result = .ok m →
      outcome.cursor = Cursor.at buf (min (p + align8 declared.toNat) buf.length) ∧
      p + headerSize + reached ≤ outcome.cursor.pos ∧
      ∃ fields, m = ofFields fields ∧ FieldsIn ctx (region.take reached) fields) ∧
    ∀ (buf' : Bytes) (p' : Nat),
      (buf'.drop p').take declared.toNat = (buf.drop p).take declared.toNat →
        let outcome' := (read ctx).run (Cursor.at buf' p')
        outcome'.result = outcome.result ∧ outcome'.warnings = outcome.warnings ∧
          ∀ m, outcome'.result = .ok m →
            outcome'.cursor = Cursor.at buf' (min (p' + align8 declared.toNat) buf'.length) := by
  intro outcome region reached
  -- One run on the region decides about the match at every place.
  rcases hregion : (readFields ctx region).run (Cursor.start []) with ⟨result, d, w⟩
  have hrun (buf' : Bytes) (p' : Nat)
      (hsame : (buf'.drop p').take declared.toNat = (buf.drop p).take declared.toNat) :
      (read ctx).run (Cursor.at buf' p') =
        framed (Cursor.at buf' p') declared.toNat ⟨result, d, w⟩ := by
    have hpeek' : Bytes.peekHeader? (buf'.drop p') = some (oxmCode, declared) := by
      have hfront := Element.peekHeader?_take hheader hpeek
      rw [← hsame] at hfront
      exact Bytes.peekHeader?_of_take hfront
    have hregion' : fieldRegion (buf'.drop p') declared = region := by
      rw [← fieldRegion_take, hsame, fieldRegion_take]
    rw [run_read_eq_framed hpeek' hheader, Cursor.rest_at, hregion', hregion]
  have hhere : outcome = _ := hrun buf p rfl
  have hend (buf' : Bytes) (p' : Nat) := Element.advanceWithin_at buf' p' (align8 declared.toNat)
  refine ⟨fun e he => ?_, fun m hm => ?_, fun buf' p' hsame => ?_⟩
  · cases result with
    | ok fields =>
      rw [hhere] at he
      cases he
    | error e' =>
      rw [hhere] at he
      cases he
      exact refuses_readFields ctx region (congrArg Outcome.result hregion)
  · cases result with
    | ok fields =>
      rw [hhere] at hm ⊢
      cases hm
      have hfields : FieldsIn ctx region fields :=
        result_readFields_eq_ok_iff.mp (congrArg Outcome.result hregion)
      exact ⟨hend buf p, passed_le_frame _ hpeek hheader, fields, rfl, hfields.take_passed⟩
    | error e =>
      rw [hhere] at hm
      cases hm
  · intro outcome'
    have hthere : outcome' = _ := hrun buf' p' hsame
    rw [hhere, hthere]
    cases result with
    | ok fields => exact ⟨rfl, rfl, fun m _ => hend buf' p'⟩
    | error e => exact ⟨rfl, rfl, fun m hm => nomatch hm⟩

/-- An ingress port, and a field of an experimenter's class, in a match without its padding. -/
def unpaddedMatch : Bytes :=
  [0, 1, 0, 20, 128, 0, 0, 4, 0, 0, 0, 7, 255, 255, 10, 4, 1, 2, 3, 4]

/-- The match is read up to the end of the buffer, or of its padding, and its last field is passed
over or refused. -/
theorem read_framed_unpaddedMatch :
    (∃ m, ((read {}).run (Cursor.at ([9] ++ unpaddedMatch ++ [9]) 1)).result = .ok m ∧
      ((read {}).run (Cursor.at ([9] ++ unpaddedMatch ++ [9]) 1)).cursor =
        Cursor.at ([9] ++ unpaddedMatch ++ [9]) 22 ∧
      ((read {}).run (Cursor.at (unpaddedMatch ++ Bytes.zeros 8) 0)).result = .ok m ∧
      ((read {}).run (Cursor.at (unpaddedMatch ++ Bytes.zeros 8) 0)).cursor =
        Cursor.at (unpaddedMatch ++ Bytes.zeros 8) 24) ∧
    ({ unknownFields := .reject } : Context).Rejects (.unknownFieldType 0xffff 5) := by
  constructor
  · obtain ⟨-, hreads, hsame⟩ := read_framed {} ([9] ++ unpaddedMatch ++ [9]) 1 20 rfl (by decide)
    have hok : ((read {}).run (Cursor.at ([9] ++ unpaddedMatch ++ [9]) 1)).result =
        .ok (ofFields [⟨FieldType.inPort.descriptor, .u32 7, none, rfl, rfl⟩]) := by
      with_unfolding_all rfl
    obtain ⟨hresult, -, hcursor⟩ := hsame (unpaddedMatch ++ Bytes.zeros 8) 0 rfl
    exact ⟨_, hok, (hreads _ hok).1, hresult.trans hok, hcursor _ (hresult.trans hok)⟩
  · obtain ⟨hfails, -⟩ := read_framed { unknownFields := .reject } unpaddedMatch 0 20 rfl (by decide)
    refine hfails _ ?_
    with_unfolding_all rfl

end Match
end OpenFlow
