import OpenFlow.Proofs.Element.Eased
import OpenFlow.Proofs.Multipart.Accounts
import OpenFlow.Proofs.Multipart.Errors

/-!
# Decoding in an easier context

What holds of lists of elements in an easier context holds of all that is decoded.  A record that
ends in a list goes to the end of the region of the list in both contexts, a match is read alike
unless one of its fields is refused, and bodies are found by their lengths, which no context
changes.  So there is one statement about every decoder, and two of its cases are of interest.
With a limit on the members of lists, and no other change, decoding gives what it gives without
the limit, cut in every list.  Where fields of unknown types are refused, decoding gives just what
it gives where they are passed over, or it fails with the type of such a field.

Main definitions:

* `Decoder`: whatever can be decoded.
* `Decoder.cut`: what is left of a value where all lists in it are cut.

Main statements:

* `Decoder.follows_read`: decoding in an easier context.
* `Decoder.read_limited`: a limit on the members of lists cuts lists and does nothing else.
* `Decoder.read_rejecting`: refusing fields of unknown types filters what is decoded.
-/

namespace OpenFlow

open Reader (Follows)

/-! ## What is left of a value -/

/-- A hello whose elements are cut. -/
def Hello.cut (limit : Option Nat) (h : Hello) : Hello :=
  { h with elements := Family.helloElement.cutList limit h.elements }

@[simp] theorem Hello.cut_none (h : Hello) : h.cut none = h :=
  congrArg (fun es => { h with elements := es }) (Family.helloElement.cutList_none h.elements)

/-- A queue whose properties are cut. -/
def PacketQueue.cut (limit : Option Nat) (q : PacketQueue) : PacketQueue :=
  { q with properties := Family.queueProperty.cutList limit q.properties }

@[simp] theorem PacketQueue.cut_none (q : PacketQueue) : q.cut none = q :=
  congrArg (fun es => { q with properties := es }) (Family.queueProperty.cutList_none q.properties)

/-- Statistics of a flow entry whose instructions are cut, and the actions in them. -/
def FlowStats.cut (limit : Option Nat) (s : FlowStats) : FlowStats :=
  { s with instructions := Family.instruction.cutList limit s.instructions }

@[simp] theorem FlowStats.cut_none (s : FlowStats) : s.cut none = s :=
  congrArg (fun es => { s with instructions := es }) (Family.instruction.cutList_none s.instructions)

/-- A configuration of a meter whose bands are cut. -/
def MeterConfig.cut (limit : Option Nat) (m : MeterConfig) : MeterConfig :=
  { m with bands := Family.meterBand.cutList limit m.bands }

@[simp] theorem MeterConfig.cut_none (m : MeterConfig) : m.cut none = m :=
  congrArg (fun es => { m with bands := es }) (Family.meterBand.cutList_none m.bands)

/-- Features of a table whose properties are cut, and the element ids in them. -/
def TableFeatures.cut (limit : Option Nat) (t : TableFeatures) : TableFeatures :=
  { t with properties := Family.tableProperty.cutList limit t.properties }

@[simp] theorem TableFeatures.cut_none (t : TableFeatures) : t.cut none = t :=
  congrArg (fun es => { t with properties := es }) (Family.tableProperty.cutList_none t.properties)

namespace Body

/-- A body whose lists are cut. -/
def cut (limit : Option Nat) : Body → Body
  | flowStats s => flowStats (s.cut limit)
  | meterConfig m => meterConfig (m.cut limit)
  | tableFeatures t => tableFeatures (t.cut limit)
  | b => b

/-- A list of bodies that is cut, with the lists in its bodies. -/
def cutList (limit : Option Nat) (bodies : List Body) : List Body :=
  (atMost limit bodies).map (cut limit)

@[simp] theorem cut_none (b : Body) : b.cut none = b := by
  cases b <;> simp [cut]

@[simp] theorem cutList_none (bodies : List Body) : cutList none bodies = bodies := by
  rw [cutList, atMost_none, funext cut_none, List.map_id']

end Body

/-- A multipart message whose bodies are cut. -/
def MultipartMessage.cut (limit : Option Nat) (m : MultipartMessage) : MultipartMessage :=
  { m with bodies := Body.cutList limit m.bodies }

@[simp] theorem MultipartMessage.cut_none (m : MultipartMessage) : m.cut none = m := by
  simp [cut]

/-- A value with a wire form of its own whose lists are cut. -/
def MessageType.cut (limit : Option Nat) : (T : MessageType) → T.Value → T.Value
  | hello => Hello.cut limit
  | packetQueue => PacketQueue.cut limit
  | multipart => MultipartMessage.cut limit
  | flowStats => FlowStats.cut limit
  | meterConfig => MeterConfig.cut limit
  | tableFeatures => TableFeatures.cut limit
  | _ => id

theorem MessageType.cut_none (T : MessageType) (a : T.Value) : T.cut none a = a := by
  cases T with
  | hello => exact Hello.cut_none a
  | packetQueue => exact PacketQueue.cut_none a
  | multipart => exact MultipartMessage.cut_none a
  | flowStats => exact FlowStats.cut_none a
  | meterConfig => exact MeterConfig.cut_none a
  | tableFeatures => exact TableFeatures.cut_none a
  | _ => rfl

/-! ## Matches and records -/

theorem Context.Declines.isTruncation_eq {ctx : Context} {e : Error} (h : ctx.Declines e) :
    e.isTruncation = false := by
  rcases h with ⟨fault, rfl⟩ | hrejects
  · rfl
  · exact hrejects.isTruncation_eq

section Records

variable {ctx : Context} {limit : Option Nat} {policy : UnknownFields}
  (hpolicy : policy = .skip ∨ policy = ctx.unknownFields)

include hpolicy

/-- A region that holds fields holds them in the easier context too. -/
theorem Match.FieldsIn.eased {region : Bytes} {fields : List OxmField}
    (h : FieldsIn ctx region fields) : FieldsIn (ctx.eased limit policy) region fields := by
  have hrejecting (hreject : policy = .reject) : ctx.unknownFields = .reject :=
    hpolicy.elim (fun hskip => nomatch hskip.symm.trans hreject) fun hsame =>
      hsame.symm.trans hreject
  induction h with
  | ending hshort => exact .ending hshort
  | overrun hpeek hknown hlong =>
    exact .overrun hpeek (fun hreject => hknown (hrejecting hreject)) hlong
  | known hopens hrest ih =>
    exact .known ⟨hopens.peek_eq, hopens.length_eq, hopens.lookup_eq, hopens.hasMask_eq⟩ ih
  | unknown hskips hpeek hlookup hlength hrest ih =>
    exact .unknown (fun hreject => hskips (hrejecting hreject)) hpeek hlookup hlength ih

theorem Match.follows_readFields (region : Bytes) :
    Follows (ctx.Spares limit) id (readFields ctx region)
      (readFields (ctx.eased limit policy) region) := by
  constructor
  · intro c c' fields w hrun
    have hfields : FieldsIn ctx region fields :=
      result_readFields_eq_ok_iff.mp (congrArg Outcome.result hrun)
    have heased : FieldsIn (ctx.eased limit policy) region fields := hfields.eased hpolicy
    obtain ⟨v, hfirst⟩ := run_readFields_of_fieldsIn hfields
    obtain ⟨v', hsecond⟩ := run_readFields_of_fieldsIn heased
    cases hrun.symm.trans (hfirst c)
    exact ⟨v', hsecond c⟩
  · intro c e herror
    exact Or.inl (refuses_readFields ctx region herror).spares

theorem Match.follows_read :
    Follows (ctx.Spares limit) id (Match.read ctx) (Match.read (ctx.eased limit policy)) :=
  .after fun _ => .after fun _ => .after fun _ => .ite (.fail_fail rfl) <|
    .ite (.after fun _ => .bind (Match.follows_readFields hpolicy _) fun _ => .refl _) (.refl _)

theorem Hello.follows_read :
    Follows (ctx.Spares limit) (Hello.cut limit) (Hello.read ctx)
      (Hello.read (ctx.eased limit policy)) :=
  .after fun _ => .ite (.map (Family.helloElement.follows_readList hpolicy _) fun _ => rfl)
    (.fail_fail rfl)

theorem PacketQueue.follows_read :
    Follows (ctx.Spares limit) (PacketQueue.cut limit) (PacketQueue.read ctx)
      (PacketQueue.read (ctx.eased limit policy)) :=
  .after fun _ => .after fun _ => .after fun _ => .after fun _ => .ite (.fail_fail rfl)
    (.map (Family.queueProperty.follows_readList hpolicy _) fun _ => rfl)

theorem FlowStatsRequest.follows_read :
    Follows (ctx.Spares limit) id (FlowStatsRequest.read ctx)
      (FlowStatsRequest.read (ctx.eased limit policy)) :=
  .after fun _ => .after fun _ => .after fun _ => .after fun _ => .after fun _ => .after fun _ =>
    .after fun _ => .map (Match.follows_read hpolicy) fun _ => rfl

theorem FlowStats.follows_read :
    Follows (ctx.Spares limit) (FlowStats.cut limit) (FlowStats.read ctx)
      (FlowStats.read (ctx.eased limit policy)) :=
  .after fun _ => .after fun _ => .after fun _ => .after fun _ => .after fun _ => .after fun _ =>
    .after fun _ => .after fun _ => .after fun _ => .after fun _ => .after fun _ => .after fun _ =>
    .after fun _ => .after fun _ => .bind (Match.follows_read hpolicy) fun _ => .after fun _ =>
    .map (Family.instruction.follows_readList hpolicy _) fun _ => rfl

theorem MeterConfig.follows_read :
    Follows (ctx.Spares limit) (MeterConfig.cut limit) (MeterConfig.read ctx)
      (MeterConfig.read (ctx.eased limit policy)) :=
  .after fun _ => .after fun _ => .after fun _ =>
    .map (Family.meterBand.follows_readList hpolicy _) fun _ => rfl

theorem TableFeatures.follows_read :
    Follows (ctx.Spares limit) (TableFeatures.cut limit) (TableFeatures.read ctx)
      (TableFeatures.read (ctx.eased limit policy)) :=
  .after fun _ => .ite (.fail_fail rfl) <| .after fun _ => .after fun _ => .after fun _ =>
    .after fun _ => .after fun _ => .after fun _ => .after fun _ =>
    .map (Family.tableProperty.follows_readList hpolicy _) fun _ => rfl

/-! ## Bodies -/

namespace Body

/-- **A body is cut where its context is eased.** -/
theorem follows_read (blank : Body) :
    Follows (ctx.Spares limit) (cut limit) (read ctx blank)
      (read (ctx.eased limit policy) blank) := by
  cases blank with
  | empty => exact .pure rfl
  | flowStatsRequest r | aggregateStatsRequest r =>
    exact .map (FlowStatsRequest.follows_read hpolicy) fun _ => rfl
  | flowStats s => exact .map (FlowStats.follows_read hpolicy) fun _ => rfl
  | meterConfig m => exact .map (MeterConfig.follows_read hpolicy) fun _ => rfl
  | tableFeatures t => exact .map (TableFeatures.follows_read hpolicy) fun _ => rfl
  | _ => exact .after fun _ => .pure rfl

omit hpolicy in
/-- The bodies of a region do not depend on where the cursor stands. -/
theorem stays_readMembers (ctx : Context) (blank : Body) (allowance : Option Nat) (left : Nat)
    (bytes : Bytes) : (readMembers ctx blank allowance left bytes).Stays := by
  intro c c'
  rw [run_readMembers_take ctx blank allowance left bytes c' c,
    run_readMembers_take ctx blank allowance left bytes c c]

/-- **The bodies of a region are cut to a bound.** -/
theorem follows_readMembers (blank : Body) {bound : Option Nat}
    (hbound : limit = none → bound = none) (allowance : Option Nat) (left : Nat) (bytes : Bytes) :
    Follows (ctx.Spares limit) (fun bodies => (atMost bound bodies).map (cut limit))
      (readMembers ctx blank allowance left bytes)
      (readMembers (ctx.eased limit policy) blank (bound.merge min allowance) left bytes) := by
  induction left using Nat.strongRecOn generalizing bound allowance bytes with
  | _ left ih =>
    by_cases hzero : bound = some 0
    · subst hzero
      have hnothing : readMembers (ctx.eased limit policy) blank ((some 0).merge min allowance) left
          bytes = pure [] := by
        rw [merge_min_eq_some_zero_iff.mpr (Or.inl rfl), readMembers_eq]
        simp
      rw [hnothing]
      exact follows_nil_of_stays (fun hnone => nomatch hbound hnone)
        (stays_readMembers ctx blank allowance left bytes)
        ((refuses_readMembers ctx blank allowance left bytes).mono fun e =>
          Context.Declines.isTruncation_eq)
    have hsame : bound.merge min allowance = some 0 ↔ allowance = some 0 := by
      simp [merge_min_eq_some_zero_iff, hzero]
    rw [readMembers_eq, readMembers_eq]
    simp only [hsame, map_pred_merge_min]
    refine .ite (.pure (by simp)) ?_
    cases hnext : next? blank bytes left with
    | none => exact .pure (by simp)
    | some n =>
      obtain ⟨-, hpos, hle, -⟩ := next?_eq_some_iff.mp hnext
      refine Element.follows_goOn _ (by simp) (fun b bodies => ?_) (follows_read hpolicy blank)
        (ih (left - n) (by omega) (fun hnone => by rw [hbound hnone]; rfl) _ _)
      rw [atMost_cons hzero, List.map_cons]

theorem follows_readList (code : UInt16) (length : Nat) :
    Follows (ctx.Spares limit) (cutList limit) (readList ctx code length)
      (readList (ctx.eased limit policy) code length) := by
  have hdirection : (ctx.eased limit policy).direction = ctx.direction := rfl
  unfold readList
  rw [hdirection]
  cases ctx.direction with
  | none => exact .fail_fail rfl
  | some direction =>
    exact .after fun _ => .bind (follows_readMembers hpolicy _ id _ _ _) fun _ => .after fun _ =>
      .pure rfl

end Body

theorem MultipartMessage.follows_read :
    Follows (ctx.Spares limit) (MultipartMessage.cut limit) (MultipartMessage.read ctx)
      (MultipartMessage.read (ctx.eased limit policy)) := by
  refine .after fun header => ?_
  cases Direction.ofKind? header.kind? with
  | none => exact .fail_fail rfl
  | some direction =>
    refine .ite (.fail_fail rfl) (.after fun code => .after fun flags => .after fun _ => ?_)
    have hdirection : policy = .skip ∨
        policy = ({ ctx with direction := some direction } : Context).unknownFields := hpolicy
    exact .map (Body.follows_readList hdirection code _) fun _ => rfl

/-! ## All decoders -/

/-- A value with a wire form of its own is cut where its context is eased. -/
theorem MessageType.follows_read (T : MessageType) :
    Follows (ctx.Spares limit) (T.cut limit) (Message.read ctx)
      (Message.read (ctx.eased limit policy)) := by
  cases T with
  | pattern => exact Match.follows_read hpolicy
  | hello => exact Hello.follows_read hpolicy
  | packetQueue => exact PacketQueue.follows_read hpolicy
  | multipart => exact MultipartMessage.follows_read hpolicy
  | flowStatsRequest => exact FlowStatsRequest.follows_read hpolicy
  | flowStats => exact FlowStats.follows_read hpolicy
  | meterConfig => exact MeterConfig.follows_read hpolicy
  | tableFeatures => exact TableFeatures.follows_read hpolicy
  | _ => exact .refl _

end Records

/-- Whatever can be decoded: a value with a wire form of its own, a list of elements in a region of
so many bytes, and the bodies of a type code in such a region. -/
inductive Decoder where
  | message (T : MessageType)
  | elements (F : Family) (length : Nat)
  | bodies (code : UInt16) (length : Nat)

namespace Decoder

/-- What is decoded. -/
def Value : Decoder → Type
  | message T => T.Value
  | elements F _ => List F.Member
  | bodies _ _ => List Body

/-- Decode a value. -/
def read (ctx : Context) : (D : Decoder) → Reader D.Value
  | message T => (Message.read ctx : Reader T.Value)
  | elements F length => (Element.readList ctx length : Reader (List F.Member))
  | bodies code length => Body.readList ctx code length

/-- What was decoded with every list in it cut to a limit, at any depth. -/
def cut (limit : Option Nat) : (D : Decoder) → D.Value → D.Value
  | message T => T.cut limit
  | elements F _ => F.cutList limit
  | bodies _ _ => Body.cutList limit

theorem cut_none (D : Decoder) (a : D.Value) : D.cut none a = a := by
  cases D with
  | message T => exact T.cut_none a
  | elements F length => exact F.cutList_none a
  | bodies code length => exact Body.cutList_none a

/-- **Decoding in an easier context** gives the same, cut where lists are, or spares an error. -/
theorem follows_read (D : Decoder) (ctx : Context) (limit : Option Nat) {policy : UnknownFields}
    (hpolicy : policy = .skip ∨ policy = ctx.unknownFields) :
    Follows (ctx.Spares limit) (D.cut limit) (D.read ctx) (D.read (ctx.eased limit policy)) := by
  cases D with
  | message T => exact T.follows_read hpolicy
  | elements F length => exact F.follows_readList hpolicy length
  | bodies code length => exact Body.follows_readList hpolicy code length

/-- **A limit on the members of lists does nothing else.**  Wherever a value is decoded without a
limit, it is decoded with any limit `k`, up to the same place, and all that has changed is that
every list in it, at any depth, has been cut to its first `k` members. -/
theorem read_limited (D : Decoder) (ctx : Context) (k : Nat) (buf : Bytes) (p : Nat) (a : D.Value)
    (c : Cursor) (w : Nat)
    (h : (D.read { ctx with elementLimit := none }).run (Cursor.at buf p) = ⟨.ok a, c, w⟩) :
    ∃ w', (D.read { ctx with elementLimit := some k }).run (Cursor.at buf p) =
      ⟨.ok (D.cut (some k) a), c, w'⟩ := by
  have hfollows := D.follows_read { ctx with elementLimit := none } (some k) (Or.inr rfl)
  exact hfollows.run_of_ok h

/-- A flow entry that applies two actions and goes to a table. -/
def flowEntryBytes (table : UInt8) : Bytes :=
  [0, 88, table, 0] ++ Bytes.zeros 44 ++ [0, 1, 0, 4, 0, 0, 0, 0] ++
    [0, 4, 0, 24, 0, 0, 0, 0, 0, 18, 0, 8, 0, 0, 0, 0, 0, 24, 0, 8, 0, 0, 0, 0] ++
    [0, 1, 0, 8, 9, 0, 0, 0]

-- The entries have more bytes than the default depth allows for.
set_option maxRecDepth 1024 in
/-- Of two flow entries, one is left, with one of its instructions, with one action. -/
theorem read_limited_flowEntry :
    ∃ w, (read { direction := some .reply, elementLimit := some 1 } (.bodies 1 176)).run
        (Cursor.at ([5] ++ flowEntryBytes 2 ++ flowEntryBytes 3) 1) =
      ⟨.ok [.flowStats { tableId := 2, instructions := [.applyActions [.popVlan]] }],
        Cursor.at ([5] ++ flowEntryBytes 2 ++ flowEntryBytes 3) 177, w⟩ := by
  exact read_limited (.bodies 1 176) { direction := some .reply } 1
    ([5] ++ flowEntryBytes 2 ++ flowEntryBytes 3) 1
    [.flowStats { tableId := 2,
                  instructions := [.applyActions [.popVlan, .decNwTtl], .gotoTable 9] },
     .flowStats { tableId := 3,
                  instructions := [.applyActions [.popVlan, .decNwTtl], .gotoTable 9] }]
    (Cursor.at ([5] ++ flowEntryBytes 2 ++ flowEntryBytes 3) 177) 0 (by with_unfolding_all rfl)

/-- **Refusing fields of unknown types only filters.**  What is decoded where such fields are
refused is decoded where they are passed over, up to the same place.  Where decoding fails
because they are refused, and only then, the error names a type that is not in the catalog. -/
theorem read_rejecting (D : Decoder) (ctx : Context) (buf : Bytes) (p : Nat) :
    let rejecting := (D.read { ctx with unknownFields := .reject }).run (Cursor.at buf p)
    let skipping := (D.read { ctx with unknownFields := .skip }).run (Cursor.at buf p)
    (∀ a, rejecting.result = .ok a →
      skipping.result = .ok a ∧ skipping.cursor = rejecting.cursor) ∧
    ∀ e a, rejecting.result = .error e → skipping.result = .ok a →
      ∃ oxmClass field, ctx.registries.fields.lookup? oxmClass field = none ∧
        e = .unknownFieldType oxmClass field := by
  intro rejecting skipping
  have hfollows := D.follows_read { ctx with unknownFields := .reject } none (Or.inl rfl)
  have heased : ({ ctx with unknownFields := .reject } : Context).eased none .skip =
      { ctx with unknownFields := .skip } := by
    simp [Context.eased]
  rw [heased] at hfollows
  constructor
  · intro a ha
    have hreject : (D.read { ctx with unknownFields := .reject }).run (Cursor.at buf p) =
        ⟨.ok a, rejecting.cursor, rejecting.warnings⟩ := by
      rw [← ha]
    obtain ⟨w, hskip⟩ := hfollows.run_of_ok hreject
    rw [D.cut_none] at hskip
    rw [show skipping = _ from hskip]
    exact ⟨rfl, rfl⟩
  · intro e a he ha
    rcases hfollows.result_of_error he with ⟨-, hrejects⟩ | ⟨e', he', -⟩
    · exact (hrejects rfl).2
    · exact nomatch ha.symm.trans he'

/-- An instruction to apply an action. -/
def applyBytes (action : Bytes) : Bytes := [0, 4, 0, 24, 0, 0, 0, 0] ++ action

/-- An action that sets the port of the packet. -/
def knownSetField : Bytes := [0, 25, 0, 16, 128, 0, 0, 4, 0, 0, 0, 7, 0, 0, 0, 0]

/-- An instruction that sets a field of an unknown type is refused for the type, and one that sets a
known field is read in both ways. -/
theorem read_rejecting_applyBytes :
    (((read { unknownFields := .reject } (.elements .instruction 24)).run
        (Cursor.at (applyBytes unknownSetField) 0)).result = .error (.unknownFieldType 0xffff 5) ∧
      ((read {} (.elements .instruction 24)).run
        (Cursor.at (applyBytes unknownSetField) 0)).result =
          .ok [.applyActions [.setField (.raw (unknownSetField.drop 4))]] ∧
      FieldCatalog.basic.lookup? 0xffff 5 = none) ∧
    ∃ actions, ((read { unknownFields := .reject } (.elements .instruction 24)).run
        (Cursor.at (applyBytes knownSetField) 0)).result = .ok [.applyActions actions] ∧
      ((read {} (.elements .instruction 24)).run
        (Cursor.at (applyBytes knownSetField) 0)).result = .ok [.applyActions actions] := by
  have hreject : ((read { unknownFields := .reject } (.elements .instruction 24)).run
      (Cursor.at (applyBytes unknownSetField) 0)).result =
        .error (.unknownFieldType 0xffff 5) := by
    with_unfolding_all rfl
  have hskip : ((read {} (.elements .instruction 24)).run
      (Cursor.at (applyBytes unknownSetField) 0)).result =
        .ok [.applyActions [.setField (.raw (unknownSetField.drop 4))]] := by
    with_unfolding_all rfl
  have hknown : ((read { unknownFields := .reject } (.elements .instruction 24)).run
      (Cursor.at (applyBytes knownSetField) 0)).result =
        .ok [.applyActions [.setField (.known ⟨FieldType.inPort.descriptor, .u32 7, none,
          rfl, rfl⟩)]] := by
    with_unfolding_all rfl
  refine ⟨⟨hreject, hskip, ?_⟩, _, hknown, ?_⟩
  · obtain ⟨-, hfails⟩ := read_rejecting (.elements .instruction 24) {} (applyBytes unknownSetField) 0
    obtain ⟨oxmClass, field, hlookup, herror⟩ := hfails _ _ hreject hskip
    cases herror
    exact hlookup
  · obtain ⟨hreads, -⟩ := read_rejecting (.elements .instruction 24) {} (applyBytes knownSetField) 0
    exact (hreads _ hknown).1

end Decoder
end OpenFlow
