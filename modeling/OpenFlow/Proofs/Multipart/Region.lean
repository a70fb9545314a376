import Mathlib.Data.List.Forall2
import OpenFlow.Multipart.Wire
import OpenFlow.Proofs.Element.Framing
import OpenFlow.Proofs.Wire.Agree
import OpenFlow.Proofs.Wire.Yields

/-!
# Bodies stay inside of their region

To judge how far a body goes, its length is looked up in the buffer, and the length may lie
behind the declared end of the bodies.  What is found there never matters.  A request for
statistics goes on for longer than to the length of its match, so where that length lies
behind the end, the request is too long for what is left.  A body that opens with its length
has a part of the length behind the end only where one byte is left; then it is read from
this one byte at most, and that is too short.

Main definitions:

* `Body.next?`: how many bytes the next body is read from, if one is.
* `Body.OpensWithLength`: a shape that has its length in front.

Main statements:

* `Body.next?_take`: what lies behind the end does not decide how far a body goes, unless one
  byte is left.
* `Body.run_readMembers_take`: what lies behind the end does not decide what is read.
* `Body.exists_spans`: the bytes of the bodies that are read follow each other.
* `Body.readList_congr`, `Body.readListAt_congr`: buffers that agree in a region give the same
  bodies there.
-/

namespace OpenFlow
namespace Body

variable {ctx : Context} {blank : Body} {left n : Nat}

/-! ## How far a body goes -/

/-- How many bytes the next body is read from, if `left` bytes remain for it and those behind it,
and one is read at all. -/
def next? (blank : Body) (bytes : Bytes) (left : Nat) : Option Nat :=
  (span? blank bytes left).filter fun n => 0 < n ∧ n ≤ left ∧ n ≤ bytes.length

theorem next?_eq_some_iff {bytes : Bytes} :
    next? blank bytes left = some n ↔
      span? blank bytes left = some n ∧ 0 < n ∧ n ≤ left ∧ n ≤ bytes.length := by
  unfold next?
  rw [Option.filter_eq_some_iff, decide_eq_true_iff]

theorem next?_of_span? {bytes : Bytes} (h : span? blank bytes left = some n) :
    next? blank bytes left = if 0 < n ∧ n ≤ left ∧ n ≤ bytes.length then some n else none := by
  unfold next?
  rw [h, Option.filter_some]
  by_cases hfits : 0 < n ∧ n ≤ left ∧ n ≤ bytes.length
  · rw [if_pos hfits, if_pos (decide_eq_true hfits)]
  · rw [if_neg hfits, if_neg (ne_true_of_eq_false (decide_eq_false hfits))]

/-- A shape that has its own length in front. -/
def OpensWithLength : Body → Prop
  | flowStats _ | groupStats _ | meterConfig _ | tableFeatures _ => True
  | _ => False

/-- A word at the front of some bytes is in front of their first ones, if they cover it. -/
theorem peekUInt16?_take (bytes : Bytes) {n : Nat} (hn : 2 ≤ n) :
    Bytes.peekUInt16? (bytes.take n) = Bytes.peekUInt16? bytes := by
  obtain ⟨k, rfl⟩ := Nat.exists_eq_add_of_le' hn
  rcases bytes with _ | ⟨b₀, _ | ⟨b₁, bytes⟩⟩
  · rfl
  · rfl
  · rfl

/-- A request for statistics goes on to behind the length of its match. -/
theorem forty_le_of_span? {request : FlowStatsRequest} {bytes : Bytes}
    (h : span? (flowStatsRequest request) bytes left = some n) : 40 ≤ n := by
  obtain ⟨length, -, rfl⟩ := Option.map_eq_some_iff.mp h
  have hmatch : 4 ≤ max length.toNat Match.headerSize := Nat.le_max_right _ _
  have halign := le_align8 (max length.toNat Match.headerSize)
  have hmod := align8_mod (max length.toNat Match.headerSize)
  change 40 ≤ 32 + _
  omega

/-- A length that lies behind the end of a region is that of no body which ends in the region, if
more than one byte is left. -/
theorem span?_take_eq_some_iff (h : blank.OpensWithLength → left ≠ 1) (hpos : 0 < n)
    (hle : n ≤ left) (bytes : Bytes) :
    span? blank (bytes.take left) left = some n ↔ span? blank bytes left = some n := by
  have hrequest (request : FlowStatsRequest) :
      span? (flowStatsRequest request) (bytes.take left) left = some n ↔
        span? (flowStatsRequest request) bytes left = some n := by
    by_cases hleft : 36 ≤ left
    · have hlength : Bytes.peekUInt16? ((bytes.take left).drop (FlowStatsRequest.fixedSize + 2)) =
          Bytes.peekUInt16? (bytes.drop (FlowStatsRequest.fixedSize + 2)) := by
        rw [List.drop_take]
        exact peekUInt16?_take _ (by change 2 ≤ left - 34; omega)
      unfold span?
      rw [hlength]
    · constructor
      · intro hspan
        have hforty := forty_le_of_span? hspan
        omega
      · intro hspan
        have hforty := forty_le_of_span? hspan
        omega
  cases blank with
  | flowStatsRequest request | aggregateStatsRequest request => exact hrequest request
  | flowStats _ | groupStats _ | meterConfig _ | tableFeatures _ =>
    have hone := h trivial
    unfold span?
    rw [peekUInt16?_take bytes (by omega)]
  | _ => exact Iff.rfl

/-- **What lies behind the end does not decide how far a body goes**, unless one byte is left for a
body that opens with a length. -/
theorem next?_take (h : blank.OpensWithLength → left ≠ 1) (bytes : Bytes) :
    next? blank (bytes.take left) left = next? blank bytes left := by
  ext n
  rw [next?_eq_some_iff, next?_eq_some_iff, List.length_take]
  constructor
  · rintro ⟨hspan, hpos, hle, hlen⟩
    exact ⟨(span?_take_eq_some_iff h hpos hle bytes).mp hspan, hpos, hle, by omega⟩
  · rintro ⟨hspan, hpos, hle, hlen⟩
    exact ⟨(span?_take_eq_some_iff h hpos hle bytes).mpr hspan, hpos, hle, by omega⟩

/-! ## One step -/

/-- A body that opens with a length is cut short by less than two bytes. -/
theorem run_read_of_opensWithLength (h : blank.OpensWithLength) {c : Cursor}
    (hc : c.remaining < 2) :
    (read ctx blank).run c = ⟨.error (.truncatedInput .bytes), c, 0⟩ := by
  have hword : Reader.u16.run c = ⟨.error (.truncatedInput .bytes), c, 0⟩ :=
    Reader.run_bind_of_error (Reader.run_bind_of_error (Reader.run_exactly_of_lt hc))
  cases blank with
  | flowStats s =>
    have hread : (FlowStats.read ctx).run c = ⟨.error (.truncatedInput .bytes), c, 0⟩ := by
      unfold FlowStats.read
      rw [Reader.run_cursor_bind]
      exact Reader.run_bind_of_error hword
    exact Reader.run_bind_of_error hread
  | groupStats s | meterConfig m | tableFeatures t =>
    exact Reader.run_bind_of_error (Reader.run_bind_of_error hword)
  | _ => exact absurd h id

/-- **One step of reading bodies**: a body is read from its own bytes, and what came of it decides
about the rest. -/
theorem readMembers_eq (ctx : Context) (blank : Body) (allowance : Option Nat) (left : Nat)
    (bytes : Bytes) :
    readMembers ctx blank allowance left bytes =
      if left = 0 ∨ allowance = some 0 then pure []
      else
        match next? blank bytes left with
        | none => pure []
        | some n => Reader.attempt (Reader.within (bytes.take n) (read ctx blank)) >>=
            Element.goOn (readMembers ctx blank (allowance.map (· - 1)) (left - n)
              (bytes.drop n)) := by
  rw [readMembers]
  by_cases hstop : left = 0 ∨ allowance = some 0
  · rw [if_pos hstop, if_pos hstop]
  rw [if_neg hstop, if_neg hstop]
  cases hspan : span? blank bytes left with
  | none =>
    unfold next?
    rw [hspan]
    rfl
  | some n =>
    rw [next?_of_span? hspan]
    by_cases hfits : 0 < n ∧ n ≤ left
    · have hlen : (bytes.take n).length < n ↔ ¬ n ≤ bytes.length := by
        rw [List.length_take]
        omega
      simp only [dif_pos hfits, hlen]
      by_cases hwhole : n ≤ bytes.length
      · rw [if_neg (not_not_intro hwhole), if_pos ⟨hfits.1, hfits.2, hwhole⟩]
        refine bind_congr fun result => ?_
        cases result with
        | ok b => rfl
        | error e => rfl
      · rw [if_pos hwhole, if_neg fun h => hwhole h.2.2]
    · simp only [dif_neg hfits]
      rw [if_neg fun h => hfits ⟨h.1, h.2.1⟩]

/-- A body of which one byte is left ends the list, if it opens with a length. -/
theorem run_readMembers_one (h : blank.OpensWithLength) (allowance : Option Nat) (bytes : Bytes)
    (c : Cursor) : (readMembers ctx blank allowance 1 bytes).run c = ⟨.ok [], c, 0⟩ := by
  rw [readMembers_eq]
  by_cases hstop : 1 = 0 ∨ allowance = some 0
  · rw [if_pos hstop]
    rfl
  rw [if_neg hstop]
  cases hnext : next? blank bytes 1 with
  | none => rfl
  | some n =>
    obtain ⟨-, hpos, hle, hlen⟩ := next?_eq_some_iff.mp hnext
    have hshort : (Cursor.start (bytes.take n)).remaining < 2 := by
      rw [← Cursor.length_rest_eq_remaining]
      change (bytes.take n).length < 2
      rw [List.length_take]
      omega
    have hattempt := Reader.run_attempt_within (bytes.take n) (read ctx blank) c
    rw [run_read_of_opensWithLength h hshort] at hattempt
    rw [Reader.run_bind_of_quiet hattempt]
    exact Element.run_goOn_truncation _ rfl c

/-! ## A whole region -/

/-- **What lies behind the end of a region does not decide what is read**, and reading does not
depend on where the cursor stands, and leaves it there. -/
theorem run_readMembers_take (ctx : Context) (blank : Body) (allowance : Option Nat) (left : Nat)
    (bytes : Bytes) (c c' : Cursor) :
    (readMembers ctx blank allowance left bytes).run c =
      ⟨((readMembers ctx blank allowance left (bytes.take left)).run c').result, c,
        ((readMembers ctx blank allowance left (bytes.take left)).run c').warnings⟩ := by
  induction left using Nat.strongRecOn generalizing allowance bytes with
  | _ left ih =>
    by_cases hone : blank.OpensWithLength ∧ left = 1
    · obtain ⟨hopens, rfl⟩ := hone
      rw [run_readMembers_one hopens, run_readMembers_one hopens]
    have hnext : next? blank (bytes.take left) left = next? blank bytes left :=
      next?_take (fun hopens hleft => hone ⟨hopens, hleft⟩) bytes
    rw [readMembers_eq, readMembers_eq, hnext]
    by_cases hstop : left = 0 ∨ allowance = some 0
    · rw [if_pos hstop, if_pos hstop]
      rfl
    rw [if_neg hstop, if_neg hstop]
    cases hsome : next? blank bytes left with
    | none => rfl
    | some n =>
      obtain ⟨-, hpos, hle, hlen⟩ := next?_eq_some_iff.mp hsome
      have htake : (bytes.take left).take n = bytes.take n := by
        rw [List.take_take, Nat.min_eq_left hle]
      have hdrop : (bytes.take left).drop n = (bytes.drop n).take (left - n) := List.drop_take
      have hrest := ih (left - n) (by omega) (allowance.map (· - 1)) (bytes.drop n)
      simp only [htake, hdrop]
      rw [Reader.run_bind_of_ok (Reader.run_attempt_within _ _ c),
        Reader.run_bind_of_ok (Reader.run_attempt_within _ _ c')]
      cases ((read ctx blank).run (Cursor.start (bytes.take n))).result with
      | ok b =>
        rw [Element.run_goOn_ok, Element.run_goOn_ok, hrest]
      | error e =>
        cases he : e.isTruncation with
        | true => rw [Element.run_goOn_truncation _ he, Element.run_goOn_truncation _ he]
        | false => rw [Element.run_goOn_error _ he, Element.run_goOn_error _ he]

/-- What one step of reading bodies can have done: it ended the list, or it read a body from its
own bytes. -/
theorem cases_of_run_readMembers {allowance : Option Nat} {bytes : Bytes} {c : Cursor}
    {bodies : List Body}
    (h : ((readMembers ctx blank allowance left bytes).run c).result = .ok bodies) :
    bodies = [] ∨ ∃ n b rest c', bodies = b :: rest ∧ 0 < n ∧ n ≤ left ∧ n ≤ bytes.length ∧
      ((read ctx blank).run (Cursor.start (bytes.take n))).result = .ok b ∧
      ((readMembers ctx blank (allowance.map (· - 1)) (left - n) (bytes.drop n)).run c').result =
        .ok rest := by
  have hnil (hrun : ((pure [] : Reader (List Body)).run c).result = .ok bodies) : bodies = [] := by
    cases hrun
    rfl
  rw [readMembers_eq] at h
  by_cases hstop : left = 0 ∨ allowance = some 0
  · rw [if_pos hstop] at h
    exact Or.inl (hnil h)
  rw [if_neg hstop] at h
  cases hnext : next? blank bytes left with
  | none =>
    rw [hnext] at h
    exact Or.inl (hnil h)
  | some n =>
    rw [hnext] at h
    obtain ⟨-, hpos, hle, hlen⟩ := next?_eq_some_iff.mp hnext
    simp only at h
    rw [Reader.run_bind_of_ok (Reader.run_attempt_within _ _ c)] at h
    rcases hread : ((read ctx blank).run (Cursor.start (bytes.take n))).result with e | b
    · rw [hread] at h
      cases he : e.isTruncation with
      | true =>
        rw [Element.run_goOn_truncation _ he] at h
        exact Or.inl (hnil h)
      | false =>
        rw [Element.run_goOn_error _ he] at h
        cases h
    · rw [hread, Element.run_goOn_ok] at h
      rcases hrest : ((readMembers ctx blank (allowance.map (· - 1)) (left - n)
        (bytes.drop n)).run c).result with e | rest
      · rw [hrest] at h
        cases h
      · rw [hrest] at h
        cases h
        exact Or.inr ⟨n, b, rest, c, rfl, hpos, hle, hlen, hread, hrest⟩

/-- **The bodies that are read lie in spans that follow each other** from the front of the region,
each with a byte at least, and each body is what its own span reads as. -/
theorem exists_spans {allowance : Option Nat} {bytes : Bytes} {c : Cursor} {bodies : List Body}
    (h : ((readMembers ctx blank allowance left bytes).run c).result = .ok bodies) :
    ∃ spans : List Bytes, spans.flatten <+: bytes.take left ∧ (∀ span ∈ spans, span ≠ []) ∧
      List.Forall₂ (fun span b => ((read ctx blank).run (Cursor.start span)).result = .ok b)
        spans bodies := by
  induction bodies generalizing allowance left bytes c with
  | nil => exact ⟨[], List.nil_prefix, fun span hspan => absurd hspan List.not_mem_nil, .nil⟩
  | cons b rest ih =>
    rcases cases_of_run_readMembers h with hnil |
      ⟨n, b', rest', c', hcons, hpos, hle, hlen, hread, hrest⟩
    · cases hnil
    · cases hcons
      obtain ⟨spans, hflat, hne, hall⟩ := ih hrest
      refine ⟨bytes.take n :: spans, ?_, ?_, .cons hread hall⟩
      · have hsplit : bytes.take left = bytes.take n ++ (bytes.drop n).take (left - n) := by
          rw [← List.take_add, Nat.add_sub_cancel' hle]
        rw [List.flatten_cons, hsplit, List.prefix_append_right_inj]
        exact hflat
      · intro span hspan
        rcases List.mem_cons.mp hspan with rfl | hspan
        · intro hempty
          have hlength := congrArg List.length hempty
          rw [List.length_take, List.length_nil] at hlength
          omega
        · exact hne span hspan

/-! ## The list -/

/-- What reading the bodies of a message comes to, where the direction is known: it depends on the
bytes of the region, and it leaves the cursor at the end of the region unless it is refused. -/
theorem run_readList_at {direction : Direction} (hdirection : ctx.direction = some direction)
    (code : UInt16) (length : Nat) (buf : Bytes) (start : Nat) (c : Cursor) :
    (readList ctx code length).run (Cursor.at buf start) =
      let members := (readMembers ctx (Body.blank ctx direction code) ctx.elementLimit length
        ((buf.drop start).take length)).run c
      match members.result with
      | .ok bodies =>
        ⟨.ok bodies, Cursor.at buf (min (start + length) buf.length), members.warnings⟩
      | .error e => ⟨.error e, Cursor.at buf start, members.warnings⟩ := by
  have hregion := run_readMembers_take ctx (Body.blank ctx direction code) ctx.elementLimit length
    (buf.drop start) (Cursor.at buf start) c
  unfold readList
  rw [hdirection]
  simp only
  rw [Reader.run_cursor_bind, Cursor.rest_at]
  rcases h : (readMembers ctx (Body.blank ctx direction code) ctx.elementLimit length
    ((buf.drop start).take length)).run c with ⟨e | bodies, c', w⟩
  · rw [h] at hregion
    rw [Reader.run_bind_of_error hregion]
  · rw [h] at hregion
    rw [Reader.run_bind_of_ok hregion, ← Element.advanceWithin_at]
    rfl

/-- **Decoding bodies stays inside of their region.**  Two buffers that agree on the bytes of the
region give the same bodies or the same error there, and as many warnings, whatever they hold
behind it.  Where bodies are given, the cursor goes to the declared end, or to the end of the
buffer before it, and each body is decoded from a span of its own; the spans follow each other
from the start, have a byte at least, and do not pass the declared end. -/
theorem readList_congr (ctx : Context) (code : UInt16) (length start : Nat) (buf buf' : Bytes)
    (hsame : (buf.drop start).take length = (buf'.drop start).take length) :
    let outcome := (readList ctx code length).run (Cursor.at buf start)
    let outcome' := (readList ctx code length).run (Cursor.at buf' start)
    outcome.result = outcome'.result ∧ outcome.warnings = outcome'.warnings ∧
      ∀ bodies, outcome.result = .ok bodies →
        outcome.cursor = Cursor.at buf (min (start + length) buf.length) ∧
        outcome'.cursor = Cursor.at buf' (min (start + length) buf'.length) ∧
        ∃ direction, ctx.direction = some direction ∧
          ∃ spans : List Bytes, spans.flatten <+: (buf.drop start).take length ∧
            (∀ span ∈ spans, span ≠ []) ∧
            List.Forall₂ (fun span b =>
              ((read ctx (Body.blank ctx direction code)).run (Cursor.start span)).result = .ok b)
              spans bodies := by
  intro outcome outcome'
  cases hdirection : ctx.direction with
  | none =>
    have hmissing (c : Cursor) :
        (readList ctx code length).run c = ⟨.error .missingDirection, c, 0⟩ := by
      unfold readList
      rw [hdirection]
      rfl
    have houtcome : outcome = ⟨.error .missingDirection, Cursor.at buf start, 0⟩ := hmissing _
    have houtcome' : outcome' = ⟨.error .missingDirection, Cursor.at buf' start, 0⟩ := hmissing _
    rw [houtcome, houtcome']
    refine ⟨rfl, rfl, ?_⟩
    intro bodies hbodies
    cases hbodies
  | some direction =>
    have hrun := run_readList_at hdirection code length buf start (Cursor.start [])
    have hrun' := run_readList_at hdirection code length buf' start (Cursor.start [])
    rw [← hsame] at hrun'
    rcases hmembers : (readMembers ctx (Body.blank ctx direction code) ctx.elementLimit length
      ((buf.drop start).take length)).run (Cursor.start []) with ⟨e | bodies, c, w⟩
    · rw [hmembers] at hrun hrun'
      have houtcome : outcome = ⟨.error e, Cursor.at buf start, w⟩ := hrun
      have houtcome' : outcome' = ⟨.error e, Cursor.at buf' start, w⟩ := hrun'
      rw [houtcome, houtcome']
      refine ⟨rfl, rfl, ?_⟩
      intro bodies hbodies
      cases hbodies
    · obtain ⟨spans, hflat, hne, hall⟩ := exists_spans (congrArg Outcome.result hmembers)
      rw [List.take_take, Nat.min_self] at hflat
      rw [hmembers] at hrun hrun'
      have houtcome : outcome =
          ⟨.ok bodies, Cursor.at buf (min (start + length) buf.length), w⟩ := hrun
      have houtcome' : outcome' =
          ⟨.ok bodies, Cursor.at buf' (min (start + length) buf'.length), w⟩ := hrun'
      rw [houtcome, houtcome']
      refine ⟨rfl, rfl, ?_⟩
      intro bodies' hbodies
      cases hbodies
      exact ⟨rfl, rfl, direction, rfl, spans, hflat, hne, hall⟩

/-- Where the sum is a word, the bodies at a position of a buffer are those that a cursor there
finds. -/
theorem readListAt_eq (ctx : Context) (code : UInt16) (buf : Bytes) {start length : UInt64}
    (h : start.toNat + length.toNat < UInt64.size) :
    readListAt ctx code buf start length =
      some ((readList ctx code length.toNat).run (Cursor.at buf start.toNat)) := by
  have hsum : (start + length).toNat = start.toNat + length.toNat := by
    rw [UInt64.toNat_add, Nat.mod_eq_of_lt h]
  have hwrap : ¬ start + length < start := by
    rw [UInt64.lt_iff_toNat_lt, hsum]
    omega
  unfold readListAt readList
  cases ctx.direction with
  | none => rfl
  | some direction =>
    simp only
    rw [if_neg fun h => hwrap h.1, Reader.run_cursor_bind, Cursor.rest_at, Element.advanceWithin_at,
      Cursor.stop_of_lt h]

/-- **Decoding bodies at a position of a buffer stays inside of their region**, for every length
whose sum with the position is a word. -/
theorem readListAt_congr (ctx : Context) (code : UInt16) (start length : UInt64) (buf buf' : Bytes)
    (hsum : start.toNat + length.toNat < UInt64.size)
    (hsame : (buf.drop start.toNat).take length.toNat =
      (buf'.drop start.toNat).take length.toNat) :
    ∃ outcome outcome', readListAt ctx code buf start length = some outcome ∧
      readListAt ctx code buf' start length = some outcome' ∧
      outcome.result = outcome'.result ∧ outcome.warnings = outcome'.warnings ∧
      ∀ bodies, outcome.result = .ok bodies →
        outcome.cursor = Cursor.at buf (min (start.toNat + length.toNat) buf.length) ∧
        outcome'.cursor = Cursor.at buf' (min (start.toNat + length.toNat) buf'.length) ∧
        ∃ direction, ctx.direction = some direction ∧
          ∃ spans : List Bytes, spans.flatten <+: (buf.drop start.toNat).take length.toNat ∧
            (∀ span ∈ spans, span ≠ []) ∧
            List.Forall₂ (fun span b =>
              ((read ctx (Body.blank ctx direction code)).run (Cursor.start span)).result = .ok b)
              spans bodies :=
  ⟨_, _, readListAt_eq ctx code buf hsum, readListAt_eq ctx code buf' hsum,
    readList_congr ctx code length.toNat start.toNat buf buf' hsame⟩

/-- A byte, a meter without bands, and one more byte. -/
def meterAndByte : Bytes := [9, 0, 8, 0, 0, 0, 0, 0, 1, 0]

/-- The last byte of the region begins a length, which is one byte in one buffer and more than is
left in the other. -/
theorem readListAt_congr_meterAndByte :
    let ctx : Context := { direction := some .reply }
    ∃ outcome outcome', readListAt ctx 10 (meterAndByte ++ [1]) 1 9 = some outcome ∧
      readListAt ctx 10 (meterAndByte ++ [5, 5]) 1 9 = some outcome' ∧
      outcome.result = .ok [.meterConfig ⟨0, 1, []⟩] ∧
      outcome'.result = .ok [.meterConfig ⟨0, 1, []⟩] ∧
      outcome.cursor = Cursor.at (meterAndByte ++ [1]) 10 ∧
      outcome'.cursor = Cursor.at (meterAndByte ++ [5, 5]) 10 := by
  intro ctx
  obtain ⟨outcome, outcome', hrun, hrun', hresult, -, hbodies⟩ :=
    readListAt_congr ctx 10 1 9 (meterAndByte ++ [1]) (meterAndByte ++ [5, 5]) (by decide) rfl
  have hread : (readListAt ctx 10 (meterAndByte ++ [1]) 1 9).map Outcome.result =
      some (.ok [.meterConfig ⟨0, 1, []⟩]) := by
    with_unfolding_all rfl
  have hok : outcome.result = .ok [.meterConfig ⟨0, 1, []⟩] := by
    rw [hrun] at hread
    exact Option.some.inj hread
  obtain ⟨hcursor, hcursor', -⟩ := hbodies _ hok
  exact ⟨outcome, outcome', hrun, hrun', hok, hresult.symm.trans hok, hcursor, hcursor'⟩

/-- **From the greatest length on, the cursor goes back** behind a meter, to the front of the
buffer, since the sum wraps to zero, and a body of an unknown shape gives nothing at all. -/
theorem readListAt_meterAndByte_wrapped :
    let ctx : Context := { direction := some .reply }
    let length : UInt64 := 0xffffffffffffffff
    let stop := min ((1 : UInt64).toNat + length.toNat) meterAndByte.length
    readListAt ctx 0x1234 meterAndByte 1 length = none ∧
      ∃ outcome, readListAt ctx 10 meterAndByte 1 length = some outcome ∧
        outcome.result = .ok [.meterConfig ⟨0, 1, []⟩] ∧
        outcome.cursor = Cursor.at meterAndByte 0 ∧
        outcome.cursor ≠ Cursor.at meterAndByte stop := by
  intro ctx length stop
  have hunknown : readListAt ctx 0x1234 meterAndByte 1 length = none := by
    with_unfolding_all rfl
  have hmeter : readListAt ctx 10 meterAndByte 1 length =
      some ⟨.ok [.meterConfig ⟨0, 1, []⟩], Cursor.at meterAndByte 0, 0⟩ := by
    with_unfolding_all rfl
  refine ⟨hunknown, _, hmeter, rfl, rfl, fun h => ?_⟩
  cases congrArg Cursor.pos h

end Body
end OpenFlow
