import OpenFlow.Proofs.Match.Errors
import OpenFlow.Proofs.Multipart.Region

/-!
# What reading a message body fails with

A body ends its list where the input ends too early inside of it, as an element does.  So what
is left of the errors of a body are those about headers that contradict themselves, and about
fields that are refused; they may come from the body, from its match or from a list in it.
These are the errors of a list of bodies, beside the one where the direction is not known.

Main statements:

* `Body.refuses_readMembers`: what reading the bodies of a region fails with.
* `readList_fails_in_place`: what reading lists of elements and of bodies fails with, and where
  the cursor is then.
-/

namespace OpenFlow

open Reader

variable {ctx : Context}

/-- A reader with a buffer of its own fails with the same errors. -/
theorem Reader.Refuses.within {α : Type} {r : Reader α} {P : Error → Prop} (h : r.Refuses P)
    (span : Bytes) : (Reader.within span r).Refuses P := by
  intro c e herror
  rw [run_within] at herror
  exact h herror

/-! ## Bodies -/

/-- The lists of all families fail with what the context declines, or not at all. -/
theorem Family.declining_readList (F : Family) (ctx : Context) (n : Nat) :
    Declining ctx (Element.readList ctx n : Reader (List F.Member)) := by
  refine .of_refuses (P := ctx.Declines) (fun c e herror => ?_) fun _ => id
  rcases hrun : (Element.readList ctx n : Reader (List F.Member)).run c with ⟨result, c', w⟩
  rw [hrun] at herror
  obtain rfl : result = .error e := herror
  obtain ⟨hrejects | ⟨fault, hfault, -⟩, -⟩ := Family.of_run_readList_error hrun
  · exact Or.inr hrejects
  · exact Or.inl ⟨fault, hfault⟩

instance (n : Nat) : Declining ctx (Element.readList ctx n : Reader (List Instruction)) :=
  Family.instruction.declining_readList ctx n

instance (n : Nat) : Declining ctx (Element.readList ctx n : Reader (List MeterBand)) :=
  Family.meterBand.declining_readList ctx n

instance (n : Nat) : Declining ctx (Element.readList ctx n : Reader (List TableProperty)) :=
  Family.tableProperty.declining_readList ctx n

instance (width : Nat) : Truncating (description width) :=
  inferInstanceAs (Truncating (text width (.text width)))

instance : Truncating SwitchDescription.read := by
  unfold SwitchDescription.read
  infer_instance

instance : Declining ctx (FlowStatsRequest.read ctx) := by
  unfold FlowStatsRequest.read
  infer_instance

-- The record has more parts than an instance may have by default.
set_option synthInstance.maxSize 512 in
instance : Declining ctx (FlowStats.read ctx) := by
  dsimp only [FlowStats.read]
  infer_instance

instance : Truncating AggregateStats.read := by
  unfold AggregateStats.read
  infer_instance

instance : Truncating TableStats.read := by
  unfold TableStats.read
  infer_instance

instance : Truncating PortQueueRequest.read := by
  unfold PortQueueRequest.read
  infer_instance

instance : Truncating PortStats.read := by
  unfold PortStats.read
  infer_instance

instance : Truncating QueueStats.read := by
  unfold QueueStats.read
  infer_instance

instance : Truncating IdRequest.read := by
  unfold IdRequest.read
  infer_instance

instance : Truncating BucketCounter.read := by
  unfold BucketCounter.read
  infer_instance

instance : Truncating GroupStats.read := by
  dsimp only [GroupStats.read]
  infer_instance

instance : Truncating ExperimenterBody.read := by
  unfold ExperimenterBody.read
  infer_instance

instance : Declining ctx (MeterConfig.read ctx) := by
  dsimp only [MeterConfig.read]
  infer_instance

instance : Declining ctx (TableFeatures.read ctx) := by
  dsimp only [TableFeatures.read]
  infer_instance

namespace Body

/-- **A body of any shape fails for want of input or with what the context declines.** -/
instance (blank : Body) : Declining ctx (read ctx blank) := by
  cases blank <;> unfold read <;> infer_instance

/-! ## Lists of bodies -/

/-- What comes behind a body is read unless the body was declined. -/
theorem refuses_goOn {rest : Reader (List Body)} {result : Except Error Body}
    (hrest : rest.Refuses ctx.Declines)
    (h : ∀ e, result = .error e → e.isTruncation = true ∨ ctx.Declines e) :
    (Element.goOn rest result).Refuses ctx.Declines := by
  cases result with
  | ok b => exact .bind hrest fun bodies => .pure (b :: bodies)
  | error e =>
    change (if e.isTruncation then pure [] else fail e : Reader (List Body)).Refuses _
    rcases h e rfl with htruncation | hdeclines
    · rw [if_pos htruncation]
      exact .pure []
    · split
      · exact .pure []
      · exact .fail hdeclines

/-- **Reading the bodies of a region never fails for want of input.** -/
theorem refuses_readMembers (ctx : Context) (blank : Body) (allowance : Option Nat) (left : Nat)
    (bytes : Bytes) : (readMembers ctx blank allowance left bytes).Refuses ctx.Declines := by
  induction left using Nat.strongRecOn generalizing allowance bytes with
  | _ left ih =>
    rw [readMembers_eq]
    by_cases hstop : left = 0 ∨ allowance = some 0
    · rw [if_pos hstop]
      exact .pure []
    rw [if_neg hstop]
    cases hnext : next? blank bytes left with
    | none => exact .pure []
    | some n =>
      obtain ⟨-, hpos, hle, -⟩ := next?_eq_some_iff.mp hnext
      have hspan : (within (bytes.take n) (read ctx blank)).Refuses fun e =>
          e.isTruncation = true ∨ ctx.Declines e :=
        .within Declining.refuses (bytes.take n)
      have hrest := ih (left - n) (by omega) (allowance.map (· - 1)) (bytes.drop n)
      exact .bind_of_yields (.attempt _) (.attempt hspan) fun result => refuses_goOn hrest

/-- Without a direction no body is read. -/
theorem run_readList_of_direction_eq_none (h : ctx.direction = none) (code : UInt16)
    (length : Nat) (c : Cursor) :
    (readList ctx code length).run c = ⟨.error .missingDirection, c, 0⟩ := by
  unfold readList
  rw [h]
  rfl

/-- With a direction, a list of bodies fails with what the context declines, and leaves the cursor
where it was. -/
theorem of_run_readList_error {direction : Direction} (hdirection : ctx.direction = some direction)
    {code : UInt16} {length start w : Nat} {buf : Bytes} {e : Error} {c : Cursor}
    (h : (readList ctx code length).run (Cursor.at buf start) = ⟨.error e, c, w⟩) :
    ctx.Declines e ∧ c = Cursor.at buf start := by
  have hrefuses := refuses_readMembers ctx (Body.blank ctx direction code) ctx.elementLimit length
    ((buf.drop start).take length)
  rw [run_readList_at hdirection code length buf start (Cursor.start [])] at h
  dsimp only at h
  rcases hmembers : ((readMembers ctx (Body.blank ctx direction code) ctx.elementLimit length
    ((buf.drop start).take length)).run (Cursor.start [])).result with error | bodies
  · rw [hmembers] at h
    cases h
    exact ⟨hrefuses hmembers, rfl⟩
  · rw [hmembers] at h
    cases h

end Body

/-- That no direction is known is not what a context declines. -/
theorem Context.not_declines_missingDirection : ¬ ctx.Declines .missingDirection := by
  rintro (⟨fault, hfault⟩ | ⟨-, oxmClass, field, -, hfault⟩)
  · cases hfault
  · cases hfault

/-- **Lists of elements and of bodies recover where the input ends, and fail in place.**  A list of
elements of any family fails only where an element of its region, or of a list inside of one,
declares less than the header of its family, or where a field of an unknown type is refused.
A list of bodies fails for want of a direction exactly if there is none, and else only with a
header that contradicts itself or with a field of an unknown type that is refused.  The cursor
of a list that fails is where it was. -/
theorem readList_fails_in_place :
    (∀ (F : Family) (ctx : Context) (buf : Bytes) (start length : Nat) (e : Error) (c : Cursor)
      (w : Nat), (Element.readList ctx length : Reader (List F.Member)).run (Cursor.at buf start) =
          ⟨.error e, c, w⟩ →
        F.Faults ctx ((buf.drop start).take length) e ∧ c = Cursor.at buf start) ∧
    ∀ (ctx : Context) (code : UInt16) (buf : Bytes) (start length : Nat),
      (((Body.readList ctx code length).run (Cursor.at buf start)).result =
          .error .missingDirection ↔ ctx.direction = none) ∧
      ∀ (e : Error) (c : Cursor) (w : Nat),
        (Body.readList ctx code length).run (Cursor.at buf start) = ⟨.error e, c, w⟩ →
          (e = .missingDirection ∨ ctx.Declines e) ∧ c = Cursor.at buf start := by
  refine ⟨fun F ctx buf start length e c w h => Family.of_run_readList_error h, ?_⟩
  intro ctx code buf start length
  cases hdirection : ctx.direction with
  | none =>
    have hrun := Body.run_readList_of_direction_eq_none hdirection code length (Cursor.at buf start)
    rw [hrun]
    refine ⟨iff_of_true rfl rfl, ?_⟩
    intro e c w h
    cases h
    exact ⟨Or.inl rfl, rfl⟩
  | some direction =>
    constructor
    · refine iff_of_false (fun hmissing => ?_) nofun
      rcases hrun : (Body.readList ctx code length).run (Cursor.at buf start) with ⟨result, c, w⟩
      rw [hrun] at hmissing
      obtain rfl : result = .error .missingDirection := hmissing
      exact Context.not_declines_missingDirection (Body.of_run_readList_error hdirection hrun).1
    · intro e c w h
      obtain ⟨hdeclines, hcursor⟩ := Body.of_run_readList_error hdirection h
      exact ⟨Or.inr hdeclines, hcursor⟩

/-- Actions to apply, the first of which declares three bytes. -/
def shortAction : Bytes := [0, 4, 0, 16, 0, 0, 0, 0, 0, 0, 0, 3, 0, 0, 0, 0]

/-- An action that sets a field of an experimenter's class. -/
def unknownSetField : Bytes := [0, 25, 0, 16, 255, 255, 10, 4, 1, 2, 3, 4, 0, 0, 0, 0]

/-- Features of a table whose length is that of no table. -/
def shortTable : Bytes := [0, 10, 0, 0, 0, 0, 0, 0, 0, 0]

/-- An action that is too short fails the instructions that it is in, a field of an unknown type
the actions, and a table that is too short the bodies of a message. -/
theorem readList_fails_in_place_short :
    (∃ w, (Element.readList {} 16 : Reader (List Instruction)).run
        (Cursor.at ([9] ++ shortAction) 1) =
          ⟨.error (.malformedHeader (.elementLength "action" 3 4)),
            Cursor.at ([9] ++ shortAction) 1, w⟩) ∧
    Family.instruction.MalformedIn {} shortAction (.elementLength "action" 3 4) ∧
    (∃ w, (Element.readList { unknownFields := .reject } 16 : Reader (List Action)).run
        (Cursor.at unknownSetField 0) =
          ⟨.error (.unknownFieldType 0xffff 5), Cursor.at unknownSetField 0, w⟩) ∧
    (∃ w, (Body.readList { direction := some .reply } 12 10).run (Cursor.at shortTable 0) =
          ⟨.error (.malformedHeader (.tableLength 10)), Cursor.at shortTable 0, w⟩) ∧
    ((Body.readList {} 12 10).run (Cursor.at shortTable 0)).result = .error .missingDirection := by
  obtain ⟨helements, hbodies⟩ := readList_fails_in_place
  have haction : (Element.readList {} 16 : Reader (List Instruction)).run
      (Cursor.at ([9] ++ shortAction) 1) =
        ⟨.error (.malformedHeader (.elementLength "action" 3 4)),
          Cursor.at ([9] ++ shortAction) 1, 0⟩ := by
    with_unfolding_all rfl
  refine ⟨⟨0, haction⟩, ?_, ⟨0, ?_⟩, ⟨0, ?_⟩, ((hbodies {} 12 shortTable 0 10).1).mpr rfl⟩
  · obtain ⟨hrejects | ⟨fault, hfault, hmalformed⟩, -⟩ :=
      helements .instruction {} ([9] ++ shortAction) 1 16 _ _ _ haction
    · cases hrejects.1
    · cases hfault
      exact hmalformed
  · with_unfolding_all rfl
  · with_unfolding_all rfl

end OpenFlow
