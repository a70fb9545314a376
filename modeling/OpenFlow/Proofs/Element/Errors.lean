import OpenFlow.Proofs.Element.Decoded
import OpenFlow.Proofs.Multipart.Extent
import OpenFlow.Proofs.Wire.Refuses

/-!
# What reading a list fails with

An element that is too short for its type ends its list, and so does one that runs past the
region.  So want of input is never an error of a list, whatever it is that runs out inside of
an element.  What is left is of two kinds.  A header declares less than the headers of its
family take; it may be that of an element of the list, or that of an element of a list inside
of an element.  Or a set-field action has a field of an unknown type, where such fields are
refused.

Main definitions:

* `Context.Rejects`: the errors about fields of unknown types.
* `Family.nested`: the lists inside of an element of a family.
* `Family.MalformedIn`: an element of a region, or inside of one, that declares too little.

Main statements:

* `Family.readsInside`: what reading one element fails with.
* `Family.of_run_readList_error`: what reading a list fails with, and where the cursor is then.
-/

namespace OpenFlow

/-- An error about a field of a type that the catalog does not know, where such fields are
refused. -/
def Context.Rejects (ctx : Context) (e : Error) : Prop :=
  ctx.unknownFields = .reject ∧ ∃ oxmClass field,
    ctx.registries.fields.lookup? oxmClass field = none ∧ e = .unknownFieldType oxmClass field

/-- A header in front of the first bytes of a string is in front of all of them. -/
theorem Bytes.peekHeader?_of_take {bs : Bytes} {n : Nat} {header : UInt16 × UInt16}
    (h : peekHeader? (bs.take n) = some header) : peekHeader? bs = some header := by
  have hlen : ¬ (bs.take n).length < 4 := by
    rw [← peekHeader?_eq_none_iff, h]
    exact nofun
  rw [List.length_take] at hlen
  have hfour : Element.commonHeaderSize ≤ n := by
    change 4 ≤ n
    omega
  cases hpeek : peekHeader? bs with
  | none =>
    rw [peekHeader?_eq_none_iff] at hpeek
    omega
  | some header' => exact (Element.peekHeader?_take hfour hpeek).symm.trans h

/-- The lists inside of an instruction: of which family they are, and where in its bytes they
begin. -/
def Instruction.nested : Instruction → List (Family × Nat)
  | writeActions _ | applyActions _ => [(.action, actionsOffset)]
  | _ => []

/-- The lists inside of a property of a table. -/
def TableProperty.nested : TableProperty → List (Family × Nat)
  | instructions _ _ | actions _ _ _ => [(.elementId, Element.commonHeaderSize)]
  | _ => []

namespace Family

/-- The lists inside of an element of a family. -/
def nested : (F : Family) → F.Member → List (Family × Nat)
  | instruction => Instruction.nested
  | tableProperty => TableProperty.nested
  | _ => fun _ => []

/-- An element that declares a length below the header of its family, in a region of elements of
one family, or in a list inside of one of them that its type has in the context. -/
inductive MalformedIn (ctx : Context) : Family → Bytes → HeaderFault → Prop
  | here {F : Family} {region : Bytes} {code declared : UInt16}
      (hpeek : Bytes.peekHeader? region = some (code, declared))
      (hlow : declared.toNat < Element.headerSize F.Member) :
      MalformedIn ctx F region
        (.elementLength (Element.family F.Member) declared.toNat (Element.headerSize F.Member))
  | behind {F : Family} {region : Bytes} {code declared : UInt16} {fault : HeaderFault}
      (hpeek : Bytes.peekHeader? region = some (code, declared))
      (hheader : Element.headerSize F.Member ≤ declared.toNat)
      (hfits : declared.toNat ≤ region.length)
      (hrest : MalformedIn ctx F (region.drop (Element.occupied F.Member declared.toNat)) fault) :
      MalformedIn ctx F region fault
  | inside {F G : Family} {region : Bytes} {code declared : UInt16} {offset : Nat}
      {fault : HeaderFault} (hpeek : Bytes.peekHeader? region = some (code, declared))
      (hheader : Element.headerSize F.Member ≤ declared.toNat)
      (hfits : declared.toNat ≤ region.length)
      (hnested : (G, offset) ∈ F.nested (Element.blank ctx code declared))
      (hinner : MalformedIn ctx G ((region.take declared.toNat).drop offset) fault) :
      MalformedIn ctx F region fault

/-- What reading the elements of a region may fail with. -/
def Faults (F : Family) (ctx : Context) (region : Bytes) (e : Error) : Prop :=
  ctx.Rejects e ∨ ∃ fault, e = .malformedHeader fault ∧ F.MalformedIn ctx region fault

/-- What reading one element from its own span, in the form of a blank, may fail with beside want
of input. -/
def FaultsInside (F : Family) (ctx : Context) (blank : F.Member) (span : Bytes) (e : Error) :
    Prop :=
  ctx.Rejects e ∨ ∃ G offset fault, (G, offset) ∈ F.nested blank ∧ e = .malformedHeader fault ∧
    G.MalformedIn ctx (span.drop offset) fault

variable {F : Family} {ctx : Context} {region : Bytes} {e : Error}

/-- A fault at the front of a region is one of the region. -/
theorem MalformedIn.of_take {fault : HeaderFault} {n : Nat}
    (h : F.MalformedIn ctx (region.take n) fault) : F.MalformedIn ctx region fault := by
  generalize htaken : region.take n = taken at h
  induction h generalizing region n with
  | here hpeek hlow =>
    subst htaken
    exact .here (Bytes.peekHeader?_of_take hpeek) hlow
  | behind hpeek hheader hfits hrest ih =>
    subst htaken
    rw [List.length_take] at hfits
    exact .behind (Bytes.peekHeader?_of_take hpeek) hheader (by omega) (ih List.drop_take.symm)
  | inside hpeek hheader hfits hnested hinner ih =>
    subst htaken
    rw [List.length_take] at hfits
    rw [List.take_take, Nat.min_eq_left (by omega)] at hinner
    exact .inside (Bytes.peekHeader?_of_take hpeek) hheader (by omega) hnested hinner

end Family

/-- What one step of reading a list can have failed with: a header that declares too little, an
element that was not read for want of something other than input, or what follows it. -/
theorem Element.cases_of_run_readMembers_error {ε : Type} [Element ε] [Framed ε] {ctx : Context}
    {allowance : Option Nat} {region : Bytes} {c : Cursor} {e : Error}
    (h : ((readMembers ctx allowance region : Reader (List ε)).run c).result = .error e) :
    ∃ code declared, Bytes.peekHeader? region = some (code, declared) ∧
      ((declared.toNat < headerSize ε ∧ e = .malformedHeader
          (.elementLength (family ε) declared.toNat (headerSize ε))) ∨
        headerSize ε ≤ declared.toNat ∧ declared.toNat ≤ region.length ∧
          ((e.isTruncation = false ∧ (readSpan (ε := ε) ctx code declared
              (region.take declared.toNat)).result = .error e) ∨
            ((readMembers ctx (allowance.map (· - 1)) (region.drop (occupied ε declared.toNat)) :
              Reader (List ε)).run c).result = .error e)) := by
  cases hpeek : Bytes.peekHeader? region with
  | none =>
    rw [run_readMembers_of_length_lt ((Bytes.peekHeader?_eq_none_iff region).mp hpeek)] at h
    cases h
  | some header =>
    obtain ⟨code, declared⟩ := header
    refine ⟨code, declared, rfl, ?_⟩
    by_cases hallow : allowance = some 0
    · rw [readMembers_eq, hpeek] at h
      simp only [if_pos hallow] at h
      cases h
    by_cases hlow : declared.toNat < headerSize ε
    · rw [run_readMembers_of_malformed hpeek hallow hlow] at h
      cases h
      exact Or.inl ⟨hlow, rfl⟩
    have hheader : headerSize ε ≤ declared.toNat := Nat.le_of_not_lt hlow
    by_cases hover : region.length < declared.toNat
    · rw [run_readMembers_of_overrun hpeek hallow hheader hover] at h
      cases h
    have hfits : declared.toNat ≤ region.length := Nat.le_of_not_lt hover
    refine Or.inr ⟨hheader, hfits, ?_⟩
    rw [run_readMembers_of_span hpeek hallow hheader hfits rfl] at h
    rcases hspan : (readSpan (ε := ε) ctx code declared (region.take declared.toNat)).result
      with error | member
    · rw [hspan] at h
      cases htruncation : error.isTruncation with
      | true =>
        rw [run_goOn_truncation _ htruncation] at h
        cases h
      | false =>
        rw [run_goOn_error _ htruncation] at h
        cases h
        exact Or.inl ⟨htruncation, rfl⟩
    · rw [hspan, run_goOn_ok] at h
      rcases hrest : ((readMembers ctx (allowance.map (· - 1))
        (region.drop (occupied ε declared.toNat)) : Reader (List ε)).run c).result
        with error | members
      · rw [hrest] at h
        cases h
        exact Or.inr rfl
      · rw [hrest] at h
        cases h

namespace Family

variable {F : Family} {ctx : Context} {region : Bytes} {e : Error}

/-! ## Lists, from their elements -/

/-- All errors of reading an element of a family from its own span are want of input, or lie inside
of the element. -/
def ReadsInside (F : Family) (ctx : Context) : Prop :=
  ∀ (blank : F.Member) (span : Bytes) (e : Error),
    ((Element.read ctx blank).run (Cursor.start span)).result = .error e →
      e.isTruncation = true ∨ F.FaultsInside ctx blank span e

/-- **What reading the elements of a region fails with**, whatever it is that runs out. -/
theorem ReadsInside.faults (hread : F.ReadsInside ctx) {allowance : Option Nat} {c : Cursor}
    (h : ((Element.readMembers ctx allowance region : Reader (List F.Member)).run c).result =
      .error e) : F.Faults ctx region e := by
  -- The induction is on the length of the region, since an element may take any part of it.
  induction hn : region.length using Nat.strongRecOn generalizing allowance region with
  | _ n ih =>
    subst hn
    obtain ⟨code, declared, hpeek, ⟨hlow, rfl⟩ | ⟨hheader, hfits, ⟨hother, hspan⟩ | hrest⟩⟩ :=
      Element.cases_of_run_readMembers_error h
    · exact Or.inr ⟨_, rfl, .here hpeek hlow⟩
    · rcases hread _ _ e hspan with htruncation | hrejects |
        ⟨G, offset, fault, hnested, rfl, hfault⟩
      · exact absurd htruncation (ne_true_of_eq_false hother)
      · exact Or.inl hrejects
      · exact Or.inr ⟨fault, rfl, .inside hpeek hheader hfits hnested hfault⟩
    · have hshorter : (region.drop (Element.occupied F.Member declared.toNat)).length <
          region.length := by
        have hcommon := Element.Framed.commonHeaderSize_le (ε := F.Member)
        have hroom := Element.Framed.le_occupied (ε := F.Member) declared.toNat
        change 4 ≤ _ at hcommon
        rw [List.length_drop]
        omega
      rcases ih _ hshorter hrest rfl with hrejects | ⟨fault, rfl, hfault⟩
      · exact Or.inl hrejects
      · exact Or.inr ⟨fault, rfl, .behind hpeek hheader hfits hfault⟩

/-- A list fails with what its region does, and leaves the cursor where it was. -/
theorem ReadsInside.of_run_readList (hread : F.ReadsInside ctx) {length w : Nat} {c c' : Cursor}
    (h : (Element.readList ctx length : Reader (List F.Member)).run c = ⟨.error e, c', w⟩) :
    F.Faults ctx (c.rest.take length) e ∧ c' = c := by
  have hstays := Element.stays_readMembers (ε := F.Member) ctx ctx.elementLimit
    (c.rest.take length) c c
  rw [Element.run_readList] at h
  rcases hrun : (Element.readMembers ctx ctx.elementLimit (c.rest.take length) :
    Reader (List F.Member)).run c with ⟨error | members, d, v⟩
  · rw [hrun] at h hstays
    cases h
    exact ⟨hread.faults (congrArg Outcome.result hrun), congrArg Outcome.cursor hstays⟩
  · rw [hrun] at h
    cases h

end Family

/-! ## The elements of each family -/

open Reader

/-- The header of an element is read from where it stands, or there is not enough input. -/
instance : Truncating Element.readHeader :=
  inferInstanceAs (Truncating (u16 >>= fun code => u16 >>= fun length => pure (code, length)))

/-- Behind the header of an element, reading goes on four bytes further. -/
theorem Element.of_run_readHeader {c c' : Cursor} {header : UInt16 × UInt16} {w : Nat}
    (h : readHeader.run c = ⟨.ok header, c', w⟩) : c' = c.advance commonHeaderSize := by
  unfold readHeader at h
  obtain ⟨code, c₁, w₁, w₂, hcode, hrest⟩ := of_run_bind h
  obtain ⟨declared, c₂, w₃, w₄, hdeclared, hlast⟩ := of_run_bind hrest
  obtain ⟨-, rfl⟩ := peekHeader?_of_run hcode hdeclared
  cases hlast
  rfl

/-- An element that is read behind its header fails where the input ends too early, or as what
follows its header does. -/
theorem Element.cases_of_run_read_error {α : Type} {f : UInt16 × UInt16 → Reader α} {span : Bytes}
    {e : Error} (h : ((readHeader >>= f).run (Cursor.start span)).result = .error e) :
    e.isTruncation = true ∨ ∃ code declared,
      ((f (code, declared)).run (Cursor.at span commonHeaderSize)).result = .error e := by
  rcases cases_of_run_bind_error h with h | ⟨⟨code, declared⟩, c', w, hrun, h⟩
  · exact Or.inl (Truncating.refuses h)
  · obtain rfl := of_run_readHeader hrun
    rw [Cursor.start, Cursor.advance_at, Nat.zero_add] at h
    exact Or.inr ⟨code, declared, h⟩

/-- What is read behind the header of an element decides about its errors. -/
theorem Element.truncating_readHeader_bind {α : Type} {f : UInt16 × UInt16 → Reader α}
    (h : ∀ code declared, Truncating (f (code, declared))) : Truncating (readHeader >>= f) :=
  have : ∀ header, Truncating (f header) := fun header => h header.1 header.2
  inferInstance

namespace ElementId

instance (ctx : Context) (blank : ElementId) : Truncating (read ctx blank) :=
  Element.truncating_readHeader_bind fun code length =>
    inferInstanceAs (Truncating (rest >>= fun body => pure (⟨code, length, body⟩ : ElementId)))

end ElementId

namespace QueueProperty

instance : Truncating readRate :=
  inferInstanceAs (Truncating (u16 >>= fun rate => skip 6 >>= fun _ => pure rate))

instance (declared : UInt16) (blank : QueueProperty) : Truncating (readBody declared blank) := by
  cases blank <;> unfold readBody <;> infer_instance

instance (ctx : Context) (blank : QueueProperty) : Truncating (read ctx blank) :=
  Element.truncating_readHeader_bind fun _ declared =>
    inferInstanceAs (Truncating (skip 4 >>= fun _ => readBody declared blank))

end QueueProperty

namespace HelloElement

instance (declared : UInt16) (blank : HelloElement) : Truncating (readBody declared blank) := by
  cases blank <;> unfold readBody <;> infer_instance

instance (ctx : Context) (blank : HelloElement) : Truncating (read ctx blank) :=
  Element.truncating_readHeader_bind fun _ declared =>
    inferInstanceAs (Truncating (readBody declared blank))

end HelloElement

namespace MeterBand

instance (declared : UInt16) (effect : BandEffect) : Truncating (readEffect declared effect) := by
  cases effect <;> unfold readEffect <;> infer_instance

instance (ctx : Context) (blank : MeterBand) : Truncating (read ctx blank) :=
  Element.truncating_readHeader_bind fun _ declared =>
    inferInstanceAs (Truncating (u32 >>= fun rate => u32 >>= fun burstSize =>
      readEffect declared blank.effect >>= fun effect =>
        pure (⟨rate, burstSize, effect⟩ : MeterBand)))

end MeterBand

instance : Truncating TableProperty.readFieldHeader :=
  inferInstanceAs (Truncating (u32 >>= fun word => pure (OxmHeader.ofWord word)))

namespace OxmField

instance (d : FieldDescriptor) : Truncating (readPayload d) :=
  inferInstanceAs (Truncating (exactly d.width.toNat >>= fun _ => pure _))

instance (d : FieldDescriptor) (hasMask : Bool) : Truncating (readBody d hasMask) := by
  unfold readBody
  infer_instance

/-- A field is not read where the input ends too early, or where its type is not known. -/
theorem refuses_read (catalog : FieldCatalog) : (read catalog).Refuses fun e =>
    e.isTruncation = true ∨ ∃ oxmClass field, catalog.lookup? oxmClass field = none ∧
      e = .unknownFieldType oxmClass field := by
  refine .bind (.of_truncating u32 fun e => Or.inl) fun word => ?_
  dsimp only
  cases hlookup : catalog.lookup? (OxmHeader.ofWord word).oxmClass
    (OxmHeader.ofWord word).field with
  | none => exact .fail (Or.inr ⟨_, _, hlookup, rfl⟩)
  | some d =>
    simp only
    exact .of_truncating _ fun e => Or.inl

end OxmField

instance : Truncating OxmHeader.peek := by
  have hbehind (c : Cursor) : Truncating (match OxmHeader.peek? c.rest with
      | some header => pure header
      | none => fail (.truncatedInput (.fieldHeader c.pos))) := by
    cases OxmHeader.peek? c.rest <;> infer_instance
  exact inferInstanceAs (Truncating (cursor >>= fun c => _))

namespace Action

/-- A set-field action is not read where the input ends too early, or where the type of its field
is refused. -/
theorem refuses_readSetField (ctx : Context) :
    (SetField.read ctx).Refuses fun e => e.isTruncation = true ∨ ctx.Rejects e := by
  have hyields := Yields.attempt (OxmField.refuses_read ctx.registries.fields)
  refine .bind (.of_truncating _ fun e => Or.inl) fun start => ?_
  refine .bind (.of_truncating _ fun e => Or.inl) fun header => ?_
  refine .bind_of_yields (.attempt _) hyields fun result hresult => ?_
  cases result with
  | ok field => exact .pure _
  | error e =>
    rcases hresult e rfl with htruncation | ⟨oxmClass, field, hlookup, rfl⟩
    · cases e with
      | truncatedInput shortage => exact .fail (Or.inl rfl)
      | _ => cases htruncation
    · by_cases hskip : ctx.unknownFields = .skip
      · simp only [if_pos hskip]
        exact .of_truncating _ fun e => Or.inl
      · simp only [if_neg hskip]
        have hreject : ctx.unknownFields = .reject := by
          cases hpolicy : ctx.unknownFields with
          | skip => exact absurd hpolicy hskip
          | reject => rfl
        exact .fail (Or.inr ⟨hreject, _, _, hlookup, rfl⟩)

theorem refuses_readBody (ctx : Context) (declared : UInt16) (blank : Action) :
    (readBody ctx declared blank).Refuses fun e => e.isTruncation = true ∨ ctx.Rejects e := by
  have hwant (r : Reader Action) [Truncating r] :
      r.Refuses fun e => e.isTruncation = true ∨ ctx.Rejects e :=
    .of_truncating r fun e => Or.inl
  cases blank with
  | setField content => exact .bind (refuses_readSetField ctx) fun _ => .pure _
  | _ =>
    unfold readBody
    exact hwant _

theorem refuses_read (ctx : Context) (blank : Action) :
    (read ctx blank).Refuses fun e => e.isTruncation = true ∨ ctx.Rejects e :=
  .bind (.of_truncating _ fun _ => Or.inl) fun header => refuses_readBody ctx header.2 blank

end Action

namespace Family

variable {F : Family} {ctx : Context} {span : Bytes} {e : Error}

/-- Elements that fail for want of input, or for what is refused in them, have no faults of lists
inside. -/
theorem ReadsInside.of_refuses (h : ∀ blank : F.Member,
    (Element.read ctx blank).Refuses fun e => e.isTruncation = true ∨ ctx.Rejects e) :
    F.ReadsInside ctx := by
  intro blank span e herror
  rcases h blank herror with htruncation | hrejects
  · exact Or.inl htruncation
  · exact Or.inr (Or.inl hrejects)

theorem ReadsInside.of_truncating (h : ∀ blank : F.Member, Truncating (Element.read ctx blank)) :
    F.ReadsInside ctx :=
  .of_refuses fun _ => .of_truncating _ fun _ => Or.inl

/-- The faults of a list inside of an element are those of the bytes where it begins. -/
theorem ReadsInside.of_readList {G : Family} (hread : G.ReadsInside ctx) {blank : F.Member}
    {offset n : Nat} (hnested : (G, offset) ∈ F.nested blank)
    (h : ((Element.readList ctx n : Reader (List G.Member)).run
      (Cursor.at span offset)).result = .error e) : F.FaultsInside ctx blank span e := by
  rcases hrun : (Element.readList ctx n : Reader (List G.Member)).run (Cursor.at span offset)
    with ⟨result, c', w⟩
  rw [hrun] at h
  obtain rfl : result = .error e := h
  obtain ⟨hrejects | ⟨fault, rfl, hfault⟩, -⟩ := hread.of_run_readList hrun
  · exact Or.inl hrejects
  · exact Or.inr ⟨G, offset, fault, hnested, rfl, hfault.of_take⟩

/-- The actions of an instruction begin behind its header and four padding bytes. -/
theorem faultsInside_of_run_readActions (hactions : action.ReadsInside ctx) {blank : Instruction}
    (hnested : (action, Instruction.actionsOffset) ∈ blank.nested) {declared : UInt16}
    (h : ((Instruction.readActions ctx declared).run
      (Cursor.at span Element.commonHeaderSize)).result = .error e) :
    e.isTruncation = true ∨ instruction.FaultsInside ctx blank span e := by
  rcases cases_of_run_bind_error h with h | ⟨u, c', w, hskip, h⟩
  · exact Or.inl (Truncating.refuses h)
  · obtain ⟨-, rfl⟩ := of_run_skip hskip
    rw [Cursor.advance_at] at h
    exact Or.inr (hactions.of_readList hnested h)

theorem readsInside_instruction (hactions : action.ReadsInside ctx) :
    instruction.ReadsInside ctx := by
  intro blank span e h
  rcases Element.cases_of_run_read_error h with htruncation | ⟨code, declared, h⟩
  · exact Or.inl htruncation
  change ((Instruction.readBody ctx declared blank).run _).result = .error e at h
  cases blank with
  | writeActions actions | applyActions actions =>
    rcases cases_of_run_bind_error h with h | ⟨found, c', w, -, h⟩
    · exact faultsInside_of_run_readActions hactions (List.mem_singleton.mpr rfl) h
    · cases h
  | _ =>
    unfold Instruction.readBody at h
    exact Or.inl (Truncating.refuses h)

/-- The element ids of a property of a table begin behind its header. -/
theorem readsInside_tableProperty (hids : elementId.ReadsInside ctx) :
    tableProperty.ReadsInside ctx := by
  intro blank span e h
  rcases Element.cases_of_run_read_error h with htruncation | ⟨code, declared, h⟩
  · exact Or.inl htruncation
  change ((TableProperty.readBody ctx declared blank).run _).result = .error e at h
  cases blank with
  | instructions miss ids | actions use miss ids =>
    rcases cases_of_run_bind_error h with h | ⟨found, c', w, -, h⟩
    · exact Or.inr (hids.of_readList (List.mem_singleton.mpr rfl) h)
    · cases h
  | nextTables miss tables | fields use miss headers | unknown code length body =>
    simp only [TableProperty.readBody] at h
    exact Or.inl (Truncating.refuses h)

/-- **Reading an element fails for want of input**, or with what lies inside of it. -/
theorem readsInside (F : Family) (ctx : Context) : F.ReadsInside ctx := by
  have hactions : action.ReadsInside ctx := .of_refuses (Action.refuses_read ctx)
  have hids : elementId.ReadsInside ctx :=
    .of_truncating fun (blank : ElementId) =>
      inferInstanceAs (Truncating (ElementId.read ctx blank))
  cases F with
  | action => exact hactions
  | instruction => exact readsInside_instruction hactions
  | queueProperty =>
    exact .of_truncating fun (blank : QueueProperty) =>
      inferInstanceAs (Truncating (QueueProperty.read ctx blank))
  | helloElement =>
    exact .of_truncating fun (blank : HelloElement) =>
      inferInstanceAs (Truncating (HelloElement.read ctx blank))
  | meterBand =>
    exact .of_truncating fun (blank : MeterBand) =>
      inferInstanceAs (Truncating (MeterBand.read ctx blank))
  | tableProperty => exact readsInside_tableProperty hids
  | elementId => exact hids

/-- **A list fails only with what its region, or a list inside of it, is refused for**, and leaves
the cursor where it was. -/
theorem of_run_readList_error {length w : Nat} {c c' : Cursor}
    (h : (Element.readList ctx length : Reader (List F.Member)).run c = ⟨.error e, c', w⟩) :
    F.Faults ctx (c.rest.take length) e ∧ c' = c :=
  (readsInside F ctx).of_run_readList h

end Family
end OpenFlow
