import OpenFlow.Proofs.Element.Errors
import OpenFlow.Proofs.Wire.Follows

/-!
# Lists in an easier context

A context can be made easier to read in, in two ways: fewer members of each list are read, and
fields of unknown types, which were refused, are passed over.  Neither changes anything else.
Where the harder context gives a list, the easier one gives it too, cut to what it reads at most,
and so are the lists inside of its elements.  Where the harder context fails and the easier one
does not, the error is one that the easier one spares: about a field that is refused or, where
lists are cut, about a member that is not read any more.

Want of input is never spared.  An element that fails for it ends its list, so it has to fail for
it in both contexts, and it does: a list inside of it does not fail for want of input, and goes to
the end of its region however many members are read.

Main definitions:

* `Context.eased`: the easier context.
* `Context.Spares`: the errors that it need not share.
* `atMost`, `Family.cut`, `Family.cutList`: what is left of a list, and of the lists inside of an
  element.

Main statements:

* `Family.follows_readMembers`: the members of a region, from what is read of one element.
* `Family.follows_readList`: lists of all families.
-/

namespace OpenFlow

open Reader (Follows)

/-! ## Bounds on the length of a list -/

/-- The first members of a list, as many as a bound allows. -/
def atMost {α : Type} (bound : Option Nat) (as : List α) : List α :=
  match bound with
  | none => as
  | some n => as.take n

section AtMost

variable {α : Type} {bound allowance : Option Nat}

@[simp] theorem atMost_none (as : List α) : atMost none as = as := rfl

@[simp] theorem atMost_nil (bound : Option Nat) : atMost bound ([] : List α) = [] := by
  cases bound <;> simp [atMost]

@[simp] theorem atMost_some_zero (as : List α) : atMost (some 0) as = [] := by
  simp [atMost]

theorem atMost_cons (h : bound ≠ some 0) (a : α) (as : List α) :
    atMost bound (a :: as) = a :: atMost (bound.map (· - 1)) as := by
  match bound, h with
  | none, _ => rfl
  | some (n + 1), _ => rfl

/-- Of two bounds, the smaller one counts. -/
theorem merge_min_eq_some_zero_iff :
    bound.merge min allowance = some 0 ↔ bound = some 0 ∨ allowance = some 0 := by
  cases bound <;> cases allowance <;> simp [Option.merge]

@[simp] theorem none_merge_min (allowance : Option Nat) :
    Option.merge min none allowance = allowance := by
  cases allowance <;> rfl

theorem map_pred_merge_min :
    (bound.merge min allowance).map (· - 1) =
      (bound.map (· - 1)).merge min (allowance.map (· - 1)) := by
  cases bound <;> cases allowance <;> simp [Option.merge, Nat.sub_min_sub_right]

end AtMost

/-! ## Easier contexts -/

namespace Context

/-- The context where no more members of a list are read than a limit says, and fields of unknown
types are treated by another policy. -/
def eased (ctx : Context) (limit : Option Nat) (policy : UnknownFields) : Context :=
  { ctx with unknownFields := policy, elementLimit := limit.merge min ctx.elementLimit }

/-- The errors of a context that the eased one need not share. -/
def Spares (ctx : Context) (limit : Option Nat) (e : Error) : Prop :=
  e.isTruncation = false ∧ (limit = none → ctx.Rejects e)

variable {ctx : Context} {limit : Option Nat} {e : Error}

theorem Rejects.isTruncation_eq (h : ctx.Rejects e) : e.isTruncation = false := by
  obtain ⟨-, oxmClass, field, -, rfl⟩ := h
  rfl

theorem Rejects.spares (h : ctx.Rejects e) : ctx.Spares limit e := ⟨h.isTruncation_eq, fun _ => h⟩

theorem spares_of_limit (hlimit : limit ≠ none) (he : e.isTruncation = false) :
    ctx.Spares limit e := ⟨he, fun hnone => absurd hnone hlimit⟩

end Context

/-! ## What is left of a list -/

namespace Instruction

/-- An instruction whose actions are cut. -/
def cut (limit : Option Nat) : Instruction → Instruction
  | writeActions actions => writeActions (atMost limit actions)
  | applyActions actions => applyActions (atMost limit actions)
  | i => i

@[simp] theorem cut_none (i : Instruction) : i.cut none = i := by
  cases i <;> simp [cut]

end Instruction

namespace TableProperty

/-- A property of a table whose element ids are cut. -/
def cut (limit : Option Nat) : TableProperty → TableProperty
  | instructions miss ids => instructions miss (atMost limit ids)
  | actions use miss ids => actions use miss (atMost limit ids)
  | p => p

@[simp] theorem cut_none (p : TableProperty) : p.cut none = p := by
  cases p <;> simp [cut]

end TableProperty

namespace Family

/-- An element whose lists are cut. -/
def cut (limit : Option Nat) : (F : Family) → F.Member → F.Member
  | instruction => Instruction.cut limit
  | tableProperty => TableProperty.cut limit
  | _ => id

/-- A list of elements that is cut, with the lists in its elements. -/
def cutList (limit : Option Nat) (F : Family) (es : List F.Member) : List F.Member :=
  (atMost limit es).map (F.cut limit)

theorem cut_none (F : Family) (e : F.Member) : F.cut none e = e := by
  cases F with
  | instruction => exact Instruction.cut_none e
  | tableProperty => exact TableProperty.cut_none e
  | _ => rfl

@[simp] theorem cutList_none (F : Family) (es : List F.Member) : F.cutList none es = es := by
  rw [cutList, atMost_none, funext F.cut_none, List.map_id']

/-- Elements without lists in them are left as they are. -/
theorem cutList_of_cut_eq_id {limit : Option Nat} {F : Family} (h : F.cut limit = id) :
    F.cutList limit = atMost limit := by
  funext es
  rw [cutList, h, List.map_id]

end Family

/-! ## Lists, from their elements -/

section Lists

variable {ctx : Context} {limit : Option Nat} {policy : UnknownFields}

/-- What becomes of a list once its first element was read, or was not. -/
theorem Element.follows_goOn {ε : Type} {g : ε → ε} {h k : List ε → List ε} {r r' : Reader ε}
    {rest rest' : Reader (List ε)} (span : Bytes) (hnil : k [] = [])
    (hcons : ∀ e es, k (e :: es) = g e :: h es) (hread : Follows (ctx.Spares limit) g r r')
    (hrest : Follows (ctx.Spares limit) h rest rest') :
    Follows (ctx.Spares limit) k (Reader.attempt (Reader.within span r) >>= goOn rest)
      (Reader.attempt (Reader.within span r') >>= goOn rest') := by
  refine .attempt_within span ?_
  rcases hrun : r.run (Cursor.start span) with ⟨e | a, c, w⟩
  · rcases hread.result_of_error (congrArg Outcome.result hrun) with hspares | ⟨e', hrun', hsame⟩
    · show Follows _ k (if e.isTruncation then pure [] else Reader.fail e) _
      rw [if_neg (ne_true_of_eq_false hspares.1)]
      exact .fail hspares _
    · rw [hrun']
      show Follows _ k (if e.isTruncation then pure [] else Reader.fail e)
        (if e'.isTruncation then pure [] else Reader.fail e')
      rw [hsame]
      split
      · exact .pure hnil
      · exact .fail_fail hsame
  · obtain ⟨w', hrun'⟩ := hread.run_of_ok hrun
    rw [hrun']
    show Follows _ k (rest >>= fun es => pure (a :: es)) (rest' >>= fun es => pure (g a :: es))
    exact .map hrest (hcons a)

/-- Where nothing is read any more, all that a list fails with behind there is spared. -/
theorem follows_nil_of_stays {ε : Type} {g : ε → ε} {r : Reader (List ε)} (hlimit : limit ≠ none)
    (hstays : r.Stays) (hrefuses : r.Refuses (·.isTruncation = false)) :
    Follows (ctx.Spares limit) (fun es => (atMost (some 0) es).map g) r (pure []) := by
  simp only [atMost_some_zero, List.map_nil]
  exact .of_stays hstays (hrefuses.mono fun e => Context.spares_of_limit hlimit) []

namespace Family

variable {F : Family}

/-- **The members of a region are cut to a bound**, if elements are read in both contexts alike. -/
theorem follows_readMembers (hread : ∀ blank : F.Member, Follows (ctx.Spares limit) (F.cut limit)
      (Element.read ctx blank) (Element.read (ctx.eased limit policy) blank))
    {bound : Option Nat} (hbound : limit = none → bound = none) (allowance : Option Nat)
    (region : Bytes) :
    Follows (ctx.Spares limit) (fun es => (atMost bound es).map (F.cut limit))
      (Element.readMembers ctx allowance region : Reader (List F.Member))
      (Element.readMembers (ctx.eased limit policy) (bound.merge min allowance) region) := by
  -- The induction is on the length of the region, since an element may take any part of it.
  induction hn : region.length using Nat.strongRecOn generalizing bound allowance region with
  | _ n ih =>
    subst hn
    by_cases hzero : bound = some 0
    · subst hzero
      have hnothing : (Element.readMembers (ctx.eased limit policy) ((some 0).merge min allowance)
          region : Reader (List F.Member)) = pure [] := by
        rw [merge_min_eq_some_zero_iff.mpr (Or.inl rfl), Element.readMembers_eq]
        cases Bytes.peekHeader? region <;> simp
      have hrefuses : (Element.readMembers ctx allowance region : Reader (List F.Member)).Refuses
          (·.isTruncation = false) := by
        intro c e herror
        rcases (readsInside F ctx).faults herror with hrejects | ⟨fault, rfl, -⟩
        · exact hrejects.isTruncation_eq
        · rfl
      rw [hnothing]
      exact follows_nil_of_stays (fun hnone => nomatch hbound hnone)
        (Element.stays_readMembers ctx allowance region) hrefuses
    rw [Element.readMembers_eq, Element.readMembers_eq]
    cases hpeek : Bytes.peekHeader? region with
    | none => exact .pure (by simp)
    | some header =>
      obtain ⟨code, declared⟩ := header
      have hsame : bound.merge min allowance = some 0 ↔ allowance = some 0 := by
        simp [merge_min_eq_some_zero_iff, hzero]
      simp only [hsame]
      by_cases hallow : allowance = some 0
      · simp only [if_pos hallow]
        exact .pure (by simp)
      by_cases hlow : declared.toNat < Element.headerSize F.Member
      · simp only [if_neg hallow, if_pos hlow]
        exact .fail_fail rfl
      by_cases hover : region.length < declared.toNat
      · simp only [if_neg hallow, if_neg hlow, if_pos hover]
        exact .pure (by simp)
      simp only [if_neg hallow, if_neg hlow, if_neg hover, map_pred_merge_min]
      have hheader := Element.Framed.commonHeaderSize_le (ε := F.Member)
      have hroom := Element.Framed.le_occupied (ε := F.Member) declared.toNat
      have hshorter : (region.drop (Element.occupied F.Member declared.toNat)).length <
          region.length := by
        change 4 ≤ _ at hheader
        rw [List.length_drop]
        omega
      refine Element.follows_goOn _ (by simp) (fun e es => ?_) (hread _)
        (ih _ hshorter (fun hnone => by rw [hbound hnone]; rfl) _ _ rfl)
      rw [atMost_cons hzero, List.map_cons]

/-- A list is cut where its context is eased, and the cursor goes to the end of its region. -/
theorem follows_readList_of_read (hread : ∀ blank : F.Member,
      Follows (ctx.Spares limit) (F.cut limit) (Element.read ctx blank)
        (Element.read (ctx.eased limit policy) blank)) (length : Nat) :
    Follows (ctx.Spares limit) (F.cutList limit) (Element.readList ctx length)
      (Element.readList (ctx.eased limit policy) length) :=
  .after fun _ => .bind (follows_readMembers hread id _ _) fun _ => .after fun _ => .pure rfl

end Family

/-! ## The elements of each family -/

theorem TableProperty.follows_readIds (length : Nat) :
    Follows (ctx.Spares limit) (atMost limit) (Element.readList ctx length : Reader (List ElementId))
      (Element.readList (ctx.eased limit policy) length) := by
  have hlist : Follows (ctx.Spares limit) (Family.elementId.cutList limit)
      (Element.readList ctx length) (Element.readList (ctx.eased limit policy) length) :=
    Family.follows_readList_of_read (fun _ => .refl _) length
  rwa [Family.cutList_of_cut_eq_id rfl] at hlist

theorem TableProperty.follows_read (blank : TableProperty) :
    Follows (ctx.Spares limit) (TableProperty.cut limit) (TableProperty.read ctx blank)
      (TableProperty.read (ctx.eased limit policy) blank) := by
  refine .after fun header => ?_
  cases blank with
  | instructions miss ids | actions use miss ids =>
    exact .map (TableProperty.follows_readIds _) fun _ => rfl
  | nextTables miss tables | fields use miss headers | unknown code length body =>
    exact .after fun _ => .pure rfl

variable (hpolicy : policy = .skip ∨ policy = ctx.unknownFields)

include hpolicy

/-- A field of an unknown type is refused in the harder context only. -/
theorem SetField.follows_read :
    Follows (ctx.Spares limit) id (SetField.read ctx) (SetField.read (ctx.eased limit policy)) := by
  refine .after fun start => .after fun _ => .bind_of_yields (.refl _)
    (.attempt (OxmField.refuses_read ctx.registries.fields)) fun result hresult => ?_
  cases result with
  | ok field => exact .refl _
  | error e =>
    rcases hresult e rfl with htruncation | ⟨oxmClass, field, hlookup, rfl⟩
    · cases e with
      | truncatedInput shortage => exact .refl _
      | _ => cases htruncation
    · cases hunknown : ctx.unknownFields with
      | skip =>
        have hskip : (ctx.eased limit policy).unknownFields = .skip :=
          hpolicy.elim id fun hsame => hsame.trans hunknown
        simp only [id, hskip]
        exact .refl _
      | reject =>
        simp only [id, reduceCtorEq, if_false]
        have hrejects : ctx.Rejects (.unknownFieldType oxmClass field) :=
          ⟨hunknown, oxmClass, field, hlookup, rfl⟩
        exact .fail hrejects.spares _

theorem Action.follows_read (blank : Action) :
    Follows (ctx.Spares limit) id (Action.read ctx blank)
      (Action.read (ctx.eased limit policy) blank) := by
  refine .after fun header => ?_
  cases blank with
  | setField content => exact .map (SetField.follows_read hpolicy) fun _ => rfl
  | _ => exact .refl _

theorem Instruction.follows_readActions (declared : UInt16) :
    Follows (ctx.Spares limit) (atMost limit) (Instruction.readActions ctx declared)
      (Instruction.readActions (ctx.eased limit policy) declared) := by
  have hread (blank : Family.action.Member) :
      Follows (ctx.Spares limit) (Family.action.cut limit) (Element.read ctx blank)
        (Element.read (ctx.eased limit policy) blank) :=
    Action.follows_read hpolicy blank
  have hlist := Family.follows_readList_of_read hread (declared.toNat - Instruction.actionsOffset)
  rw [Family.cutList_of_cut_eq_id rfl] at hlist
  exact .after fun _ => hlist

theorem Instruction.follows_read (blank : Instruction) :
    Follows (ctx.Spares limit) (Instruction.cut limit) (Instruction.read ctx blank)
      (Instruction.read (ctx.eased limit policy) blank) := by
  refine .after fun header => ?_
  cases blank with
  | writeActions actions | applyActions actions =>
    exact .map (Instruction.follows_readActions hpolicy header.2) fun _ => rfl
  | gotoTable tableId => exact .after fun _ => .after fun _ => .pure rfl
  | writeMetadata metadata mask =>
    exact .after fun _ => .after fun _ => .after fun _ => .pure rfl
  | clearActions | meter id | unknown code length body => exact .after fun _ => .pure rfl

/-- **An element is cut where its context is eased.** -/
theorem Family.follows_read (F : Family) (blank : F.Member) :
    Follows (ctx.Spares limit) (F.cut limit) (Element.read ctx blank)
      (Element.read (ctx.eased limit policy) blank) := by
  cases F with
  | action => exact Action.follows_read hpolicy blank
  | instruction => exact Instruction.follows_read hpolicy blank
  | tableProperty => exact TableProperty.follows_read blank
  | queueProperty | helloElement | meterBand | elementId => exact .refl _

/-- **Lists of all families are cut where their context is eased.** -/
theorem Family.follows_readList (F : Family) (length : Nat) :
    Follows (ctx.Spares limit) (F.cutList limit) (Element.readList ctx length)
      (Element.readList (ctx.eased limit policy) length) :=
  Family.follows_readList_of_read (F.follows_read hpolicy) length

end Lists
end OpenFlow
