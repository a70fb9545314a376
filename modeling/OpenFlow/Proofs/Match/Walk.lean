import OpenFlow.Proofs.Match.Canonical
import OpenFlow.Proofs.Oxm.Payload

/-!
# The fields in a region of bytes

Which fields a region of bytes holds follows from the bytes, from the catalog, and from what
is done about fields of unknown types.  It is said here without reading, in two relations.
`Match.FieldsIn` cuts a region into its fields: those of known types are on the list, with
the payloads that stand on the wire, those of unknown types are passed over, and the list
ends in front of what is too short.  `Match.RefusedIn` finds a field of an unknown type behind
fields of known types, where such fields are refused.

A field of a known type takes as many bytes as its descriptor calls for, and one of an unknown
type as many as its own header says.  These are two rules, and nothing makes them agree.

Main definitions:

* `FieldCatalog.extent`: how many bytes a field takes.
* `Match.FieldsIn`, `Match.RefusedIn`: what a region holds.

Main statements:

* `Match.fieldsIn_or_refusedIn`: every region is one or the other.
* `Match.result_readFields_eq_ok_iff`, `Match.result_readFields_eq_error_iff`: reading finds
  just that.
* `Match.run_read_of_fieldsIn`: a match is what setting the fields of its region makes.
-/

namespace OpenFlow

/-! ## Headers -/

/-- A type and a length that are there are read. -/
theorem Reader.run_header_bind {α : Type} {f : UInt16 → UInt16 → Reader α} {c : Cursor}
    {code length : UInt16} (h : Bytes.peekHeader? c.rest = some (code, length)) :
    (u16 >>= fun code => u16 >>= fun length => f code length).run c =
      (f code length).run (c.advance 4) := by
  have hrest : 4 ≤ c.rest.length := by
    rcases hc : c.rest with _ | ⟨b₀, _ | ⟨b₁, _ | ⟨b₂, _ | ⟨b₃, rest⟩⟩⟩⟩
    case cons.cons.cons.cons => exact Nat.le_add_left 4 rest.length
    all_goals
      rw [hc] at h
      exact nomatch h
  have hsize : 4 ≤ c.size - c.pos := c.length_rest ▸ hrest
  have hfirst : u16.run c = ⟨.ok _, c.advance 2, 0⟩ :=
    run_word_of_le _ (show 2 ≤ c.size - c.pos by omega)
  have hsecond : u16.run (c.advance 2) = ⟨.ok _, (c.advance 2).advance 2, 0⟩ :=
    run_word_of_le _ (show 2 ≤ c.size - (c.pos + 2) by omega)
  obtain ⟨hpeek, -⟩ := peekHeader?_of_run hfirst hsecond
  cases h.symm.trans hpeek
  rw [run_bind_of_quiet hfirst, run_bind_of_quiet hsecond, Cursor.advance_advance]

namespace FieldCatalog

/-- Whether a catalog knows a type of field. -/
def knows (catalog : FieldCatalog) (key : UInt16 × UInt8) : Bool :=
  (catalog.lookup? key.1 key.2).isSome

/-- How many bytes a field with a given header takes: of a known type as many as the descriptor
calls for, of another one as many as the header says. -/
def extent (catalog : FieldCatalog) (header : OxmHeader) : Nat :=
  match catalog.lookup? header.oxmClass header.field with
  | some d => OxmHeader.size + d.width.toNat * OxmHeader.copiesOf header.hasMask
  | none => header.wireLength

variable {catalog : FieldCatalog} {header : OxmHeader}

theorem extent_of_known {d : FieldDescriptor}
    (h : catalog.lookup? header.oxmClass header.field = some d) :
    catalog.extent header = OxmHeader.size + d.width.toNat * OxmHeader.copiesOf header.hasMask := by
  rw [extent, h]

theorem extent_of_unknown (h : catalog.lookup? header.oxmClass header.field = none) :
    catalog.extent header = header.wireLength := by
  rw [extent, h]

theorem size_le_extent (catalog : FieldCatalog) (header : OxmHeader) :
    OxmHeader.size ≤ catalog.extent header := by
  unfold extent
  cases catalog.lookup? header.oxmClass header.field with
  | some d => exact Nat.le_add_right _ _
  | none => exact Nat.le_add_right _ _

end FieldCatalog

namespace Match

/-! ## How far the fields go -/

/-- How many bytes the fields at the front of a region take, of known types and of others, up to one
that would run past the end. -/
def passed (catalog : FieldCatalog) (region : Bytes) : Nat :=
  match OxmHeader.peek? region with
  | none => 0
  | some header =>
    if catalog.extent header ≤ region.length then
      catalog.extent header + passed catalog (region.drop (catalog.extent header))
    else 0
termination_by region.length
decreasing_by
  have hsize : 4 ≤ catalog.extent header := catalog.size_le_extent header
  simp only [List.length_drop]
  omega

variable {catalog : FieldCatalog} {region : Bytes} {header : OxmHeader} {fields : List OxmField}

theorem passed_of_peek?_eq_none (h : OxmHeader.peek? region = none) :
    passed catalog region = 0 := by
  rw [passed, h]

theorem passed_of_lt (h : OxmHeader.peek? region = some header)
    (hlong : region.length < catalog.extent header) : passed catalog region = 0 := by
  rw [passed, h]
  simp only [if_neg (Nat.not_le.mpr hlong)]

theorem passed_of_le (h : OxmHeader.peek? region = some header)
    (hfits : catalog.extent header ≤ region.length) :
    passed catalog region =
      catalog.extent header + passed catalog (region.drop (catalog.extent header)) := by
  rw [passed, h]
  simp only [if_pos hfits]

/-- In front of other bytes, a whole field is passed first. -/
theorem passed_append {whole : Bytes} (rest : Bytes) (h : OxmHeader.peek? whole = some header)
    (hlen : whole.length = catalog.extent header) :
    passed catalog (whole ++ rest) = whole.length + passed catalog rest := by
  have hfits : catalog.extent header ≤ (whole ++ rest).length := by
    rw [List.length_append]
    omega
  rw [passed_of_le (OxmHeader.peek?_append_of_some h rest) hfits, ← hlen, List.drop_left]

/-- The fields do not go past the end of the region. -/
theorem passed_le_length (catalog : FieldCatalog) (region : Bytes) :
    passed catalog region ≤ region.length := by
  fun_induction passed catalog region with
  | case1 region hpeek => exact Nat.zero_le _
  | case2 region header hpeek hfits ih =>
    rw [List.length_drop] at ih
    omega
  | case3 region header hpeek hlong => exact Nat.zero_le _

/-! ## What a region holds -/

/-- A header, at the front of a region, of a field that the catalog knows and that has the mask
and the payload that stand behind the header. -/
structure Opens (ctx : Context) (front : Bytes) (header : OxmHeader) (f : OxmField) : Prop where
  peek_eq : OxmHeader.peek? front = some header
  length_eq : front.length = OxmHeader.size
  lookup_eq : ctx.registries.fields.lookup? header.oxmClass header.field = some f.descriptor
  hasMask_eq : f.hasMask = header.hasMask

/-- The fields that a region of bytes holds, in the order of the wire. -/
inductive FieldsIn (ctx : Context) : Bytes → List OxmField → Prop
  /-- There is no room for a header. -/
  | ending {region : Bytes} (hshort : region.length < OxmHeader.size) : FieldsIn ctx region []
  /-- A field that would run past the end ends the list, with all that follows it. -/
  | overrun {region : Bytes} {header : OxmHeader} (hpeek : OxmHeader.peek? region = some header)
      (hpolicy : ctx.unknownFields = .reject →
        ctx.registries.fields.lookup? header.oxmClass header.field ≠ none)
      (hlong : region.length < ctx.registries.fields.extent header) : FieldsIn ctx region []
  /-- A field of a known type stands on the wire with its payload. -/
  | known {front rest : Bytes} {header : OxmHeader} {f : OxmField} {fields : List OxmField}
      (hopens : Opens ctx front header f) (hrest : FieldsIn ctx rest fields) :
      FieldsIn ctx (front ++ (f.payload ++ rest)) (f :: fields)
  /-- A field of an unknown type is passed over, by the length in its own header. -/
  | unknown {front skipped rest : Bytes} {header : OxmHeader} {fields : List OxmField}
      (hpolicy : ctx.unknownFields ≠ .reject) (hpeek : OxmHeader.peek? front = some header)
      (hlookup : ctx.registries.fields.lookup? header.oxmClass header.field = none)
      (hlength : (front ++ skipped).length = header.wireLength)
      (hrest : FieldsIn ctx rest fields) : FieldsIn ctx (front ++ (skipped ++ rest)) fields

/-- Behind fields of known types, a region has one of an unknown type, which is refused. -/
inductive RefusedIn (ctx : Context) : Bytes → UInt16 → UInt8 → Prop
  | here {region : Bytes} {header : OxmHeader} (hpolicy : ctx.unknownFields = .reject)
      (hpeek : OxmHeader.peek? region = some header)
      (hlookup : ctx.registries.fields.lookup? header.oxmClass header.field = none) :
      RefusedIn ctx region header.oxmClass header.field
  | behind {front rest : Bytes} {header : OxmHeader} {f : OxmField} {oxmClass : UInt16}
      {field : UInt8} (hopens : Opens ctx front header f)
      (hrest : RefusedIn ctx rest oxmClass field) :
      RefusedIn ctx (front ++ (f.payload ++ rest)) oxmClass field

variable {ctx : Context}

theorem fieldsIn_nil (ctx : Context) : FieldsIn ctx [] [] := .ending (by decide)

/-- Fields are refused only where this is the policy. -/
theorem RefusedIn.policy_eq {oxmClass : UInt16} {field : UInt8}
    (h : RefusedIn ctx region oxmClass field) : ctx.unknownFields = .reject := by
  induction h with
  | here hpolicy hpeek hlookup => exact hpolicy
  | behind hopens hrest ih => exact ih

/-- A region is cut behind its header and behind what the header calls for. -/
theorem exists_eq_append {header : OxmHeader} {k : Nat}
    (hpeek : OxmHeader.peek? region = some header) (hfits : OxmHeader.size + k ≤ region.length) :
    ∃ front behind rest, region = front ++ (behind ++ rest) ∧
      OxmHeader.peek? front = some header ∧ front.length = OxmHeader.size ∧
      behind.length = k := by
  refine ⟨region.take OxmHeader.size, (region.drop OxmHeader.size).take k,
    (region.drop OxmHeader.size).drop k, ?_, OxmHeader.peek?_take (Nat.le_refl _) hpeek, ?_, ?_⟩
  · rw [List.take_append_drop, List.take_append_drop]
  · rw [List.length_take, Nat.min_eq_left (Nat.le_trans (Nat.le_add_right _ _) hfits)]
  · rw [List.length_take, List.length_drop]
    omega

/-- **Every region holds fields or is refused.** -/
theorem fieldsIn_or_refusedIn (ctx : Context) (region : Bytes) :
    (∃ fields, FieldsIn ctx region fields) ∨
      ∃ oxmClass field, RefusedIn ctx region oxmClass field := by
  -- The induction is on the length of the region, since a field may take any part of it.
  induction hn : region.length using Nat.strongRecOn generalizing region with
  | _ n ih =>
    subst hn
    have hshorter (front behind rest : Bytes) (hfront : front.length = OxmHeader.size) :
        rest.length < (front ++ (behind ++ rest)).length := by
      rw [List.length_append, List.length_append, hfront, OxmHeader.size]
      omega
    cases hpeek : OxmHeader.peek? region with
    | none => exact Or.inl ⟨[], .ending (OxmHeader.length_lt_of_peek?_eq_none hpeek)⟩
    | some header =>
      by_cases hlong : region.length < ctx.registries.fields.extent header
      · by_cases hpolicy : ctx.unknownFields = .reject ∧
          ctx.registries.fields.lookup? header.oxmClass header.field = none
        · exact Or.inr ⟨_, _, .here hpolicy.1 hpeek hpolicy.2⟩
        · exact Or.inl ⟨[], .overrun hpeek (not_and.mp hpolicy) hlong⟩
      cases hlookup : ctx.registries.fields.lookup? header.oxmClass header.field with
      | some d =>
        rw [FieldCatalog.extent_of_known hlookup, Nat.not_lt] at hlong
        obtain ⟨front, behind, rest, rfl, hfront, hlength, hbehind⟩ :=
          exists_eq_append hpeek hlong
        obtain ⟨f, rfl, hmask, rfl⟩ := OxmField.exists_payload_eq d header.hasMask hbehind
        have hopens : Opens ctx front header f := ⟨hfront, hlength, hlookup, hmask⟩
        rcases ih _ (hshorter front f.payload rest hlength) _ rfl with
          ⟨fields, hfields⟩ | ⟨oxmClass, field, hrefused⟩
        · exact Or.inl ⟨f :: fields, .known hopens hfields⟩
        · exact Or.inr ⟨oxmClass, field, .behind hopens hrefused⟩
      | none =>
        by_cases hpolicy : ctx.unknownFields = .reject
        · exact Or.inr ⟨_, _, .here hpolicy hpeek hlookup⟩
        rw [FieldCatalog.extent_of_unknown hlookup, Nat.not_lt] at hlong
        obtain ⟨front, skipped, rest, rfl, hfront, hlength, hskipped⟩ :=
          exists_eq_append hpeek hlong
        have htotal : (front ++ skipped).length = header.wireLength := by
          rw [List.length_append, hlength, hskipped]
          rfl
        rcases ih _ (hshorter front skipped rest hlength) _ rfl with
          ⟨fields, hfields⟩ | ⟨oxmClass, field, hrefused⟩
        · exact Or.inl ⟨fields, .unknown hpolicy hfront hlookup htotal hfields⟩
        · exact absurd hrefused.policy_eq hpolicy

/-- Where unknown types are passed over, every region holds fields. -/
theorem exists_fieldsIn (h : ctx.unknownFields ≠ .reject) (region : Bytes) :
    ∃ fields, FieldsIn ctx region fields := by
  rcases fieldsIn_or_refusedIn ctx region with hfields | ⟨oxmClass, field, hrefused⟩
  · exact hfields
  · exact absurd hrefused.policy_eq h

/-! ## Reading the fields -/

theorem run_readFields_of_peek?_eq_none (h : OxmHeader.peek? region = none) (c : Cursor) :
    (readFields ctx region).run c = ⟨.ok [], c, 0⟩ := by
  rw [readFields_eq, h]
  rfl

/-- A field of a known type ends the list if it would run past the end. -/
theorem run_readFields_of_known_lt {d : FieldDescriptor}
    (hpeek : OxmHeader.peek? region = some header)
    (hlookup : ctx.registries.fields.lookup? header.oxmClass header.field = some d)
    (hlong : region.length < ctx.registries.fields.extent header) (c : Cursor) :
    (readFields ctx region).run c = ⟨.ok [], c, 0⟩ := by
  rw [FieldCatalog.extent_of_known hlookup] at hlong
  rw [readFields_eq, hpeek]
  simp only [hlookup, if_pos hlong]
  rfl

/-- A field of an unknown type is refused or passed over; it ends the list if it would run past the
end. -/
theorem run_readFields_of_unknown (hpeek : OxmHeader.peek? region = some header)
    (hlookup : ctx.registries.fields.lookup? header.oxmClass header.field = none) (c : Cursor) :
    (readFields ctx region).run c =
      if ctx.unknownFields = .reject then
        ⟨.error (.unknownFieldType header.oxmClass header.field), c, 0⟩
      else if region.length < ctx.registries.fields.extent header then ⟨.ok [], c, 0⟩
      else (readFields ctx (region.drop (ctx.registries.fields.extent header))).run
        (c.advance (ctx.registries.fields.extent header)) := by
  rw [FieldCatalog.extent_of_unknown hlookup, readFields_eq, hpeek]
  simp only [hlookup]
  split
  · rfl
  · split
    · rfl
    · exact Reader.run_pass_bind _ _ c

/-- One step of reading the fields of a region, in front of a field of a known type: the rest is
read behind its payload.  The field itself raises a warning for a length that does not agree. -/
theorem run_readFields_of_opens {front : Bytes} {header : OxmHeader} {f : OxmField}
    (h : Opens ctx front header f) (rest : Bytes) (c : Cursor) :
    let behind := (readFields ctx rest).run (c.advance (front ++ f.payload).length)
    (readFields ctx (front ++ (f.payload ++ rest))).run c =
      ⟨behind.result.map (f :: ·), behind.cursor,
        (if OxmField.lengthAgrees header f.descriptor then 0 else 1) + behind.warnings⟩ := by
  intro behind
  have hextent : OxmHeader.size + f.descriptor.width.toNat * OxmHeader.copiesOf header.hasMask =
      (front ++ f.payload).length := by
    rw [List.length_append, h.length_eq, OxmField.length_payload, h.hasMask_eq]
    rfl
  have hfits : ¬ ((front ++ f.payload) ++ rest).length < (front ++ f.payload).length := by
    rw [List.length_append]
    omega
  have hread : (Reader.within (front ++ f.payload)
      (OxmField.read ctx.registries.fields)).run c =
        ⟨.ok f, c, if OxmField.lengthAgrees header f.descriptor then 0 else 1⟩ := by
    have hfaces := Cursor.Faces.start (front ++ (f.payload ++ []))
    have hrun := OxmField.run_read_payload h.length_eq h.peek_eq h.lookup_eq h.hasMask_eq hfaces
    rw [List.append_nil] at hrun
    rw [Reader.run_within, hrun]
  rw [← List.append_assoc, readFields_eq,
    OxmHeader.peek?_append_of_some (OxmHeader.peek?_append_of_some h.peek_eq f.payload)]
  simp only [h.lookup_eq, hextent, if_neg hfits, List.take_left, List.drop_left,
    Reader.run_bind_of_ok hread, Reader.run_pass_bind]
  rcases hrest : behind with ⟨e | fields, c', w⟩
  · rw [Reader.run_bind_of_error hrest]
    rfl
  · rw [Reader.run_bind_of_ok hrest]
    rfl

/-- A field of a known type takes as many bytes as its header calls for. -/
theorem Opens.length_append {front : Bytes} {header : OxmHeader} {f : OxmField}
    (h : Opens ctx front header f) :
    (front ++ f.payload).length = ctx.registries.fields.extent header := by
  rw [FieldCatalog.extent_of_known h.lookup_eq, List.length_append, h.length_eq,
    OxmField.length_payload, h.hasMask_eq]
  rfl

theorem Opens.passed_append {front : Bytes} {header : OxmHeader} {f : OxmField}
    (h : Opens ctx front header f) (rest : Bytes) :
    passed ctx.registries.fields (front ++ (f.payload ++ rest)) =
      (front ++ f.payload).length + passed ctx.registries.fields rest := by
  rw [← List.append_assoc]
  exact Match.passed_append rest (OxmHeader.peek?_append_of_some h.peek_eq f.payload)
    h.length_append

/-- Where a region holds fields, they are read wherever the cursor stands, and it goes along with
all that is passed. -/
theorem run_readFields_of_fieldsIn (h : FieldsIn ctx region fields) :
    ∃ w, ∀ c, (readFields ctx region).run c =
      ⟨.ok fields, c.advance (passed ctx.registries.fields region), w⟩ := by
  induction h with
  | ending hshort =>
    have hpeek := OxmHeader.peek?_eq_none_of_length_lt hshort
    refine ⟨0, fun c => ?_⟩
    rw [run_readFields_of_peek?_eq_none hpeek, passed_of_peek?_eq_none hpeek, Cursor.advance_zero]
  | @overrun region header hpeek hpolicy hlong =>
    refine ⟨0, fun c => ?_⟩
    rw [passed_of_lt hpeek hlong, Cursor.advance_zero]
    cases hlookup : ctx.registries.fields.lookup? header.oxmClass header.field with
    | some d => exact run_readFields_of_known_lt hpeek hlookup hlong c
    | none =>
      have hskip : ctx.unknownFields ≠ .reject := fun hreject => hpolicy hreject hlookup
      rw [run_readFields_of_unknown hpeek hlookup, if_neg hskip, if_pos hlong]
  | @known front rest header f fields hopens hrest ih =>
    obtain ⟨w, ih⟩ := ih
    refine ⟨(if OxmField.lengthAgrees header f.descriptor then 0 else 1) + w, fun c => ?_⟩
    rw [run_readFields_of_opens hopens, ih, hopens.passed_append, Cursor.advance_advance]
    rfl
  | @unknown front skipped rest header fields hpolicy hpeek hlookup hlength hrest ih =>
    obtain ⟨w, ih⟩ := ih
    have hpeek' : OxmHeader.peek? (front ++ skipped) = some header :=
      OxmHeader.peek?_append_of_some hpeek skipped
    have hextent : (front ++ skipped).length = ctx.registries.fields.extent header :=
      hlength.trans (FieldCatalog.extent_of_unknown hlookup).symm
    have hfits : ¬ ((front ++ skipped) ++ rest).length < (front ++ skipped).length := by
      rw [List.length_append]
      omega
    refine ⟨w, fun c => ?_⟩
    rw [← List.append_assoc, run_readFields_of_unknown
      (OxmHeader.peek?_append_of_some hpeek' rest) hlookup, if_neg hpolicy, ← hextent,
      if_neg hfits, List.drop_left, ih, Match.passed_append rest hpeek' hextent,
      Cursor.advance_advance]

/-- **Where a region is refused**, reading fails wherever the cursor stands, which then is in front
of the header of the field. -/
theorem run_readFields_of_refusedIn {oxmClass : UInt16} {field : UInt8}
    (h : RefusedIn ctx region oxmClass field) :
    ∃ n w header, OxmHeader.peek? (region.drop n) = some header ∧
      header.oxmClass = oxmClass ∧ header.field = field ∧
      ∀ c, (readFields ctx region).run c =
        ⟨.error (.unknownFieldType oxmClass field), c.advance n, w⟩ := by
  induction h with
  | @here region header hpolicy hpeek hlookup =>
    refine ⟨0, 0, header, hpeek, rfl, rfl, fun c => ?_⟩
    rw [run_readFields_of_unknown hpeek hlookup, if_pos hpolicy, Cursor.advance_zero]
  | @behind front rest header f oxmClass field hopens hrest ih =>
    obtain ⟨n, w, refused, hpeek, hclass, hfield, ih⟩ := ih
    refine ⟨(front ++ f.payload).length + n,
      (if OxmField.lengthAgrees header f.descriptor then 0 else 1) + w, refused, ?_, hclass, hfield,
      fun c => ?_⟩
    · rw [← List.append_assoc, List.drop_length_add_append]
      exact hpeek
    · rw [run_readFields_of_opens hopens, ih, Cursor.advance_advance]
      rfl

theorem result_readFields_of_refusedIn {oxmClass : UInt16} {field : UInt8}
    (h : RefusedIn ctx region oxmClass field) (c : Cursor) :
    ((readFields ctx region).run c).result = .error (.unknownFieldType oxmClass field) := by
  obtain ⟨n, w, header, -, -, -, hrun⟩ := run_readFields_of_refusedIn h
  rw [hrun]

/-- Wherever the cursor stands, the same comes of a region, and the cursor goes as far. -/
theorem exists_run_readFields (ctx : Context) (region : Bytes) :
    ∃ result n w, ∀ c, (readFields ctx region).run c = ⟨result, c.advance n, w⟩ := by
  rcases fieldsIn_or_refusedIn ctx region with ⟨fields, hfields⟩ | ⟨oxmClass, field, hrefused⟩
  · obtain ⟨w, hrun⟩ := run_readFields_of_fieldsIn hfields
    exact ⟨_, _, w, hrun⟩
  · obtain ⟨n, w, header, -, -, -, hrun⟩ := run_readFields_of_refusedIn hrefused
    exact ⟨_, n, w, hrun⟩

/-- **Reading a region gives the fields that it holds**, and no others. -/
theorem result_readFields_eq_ok_iff {c : Cursor} :
    ((readFields ctx region).run c).result = .ok fields ↔ FieldsIn ctx region fields := by
  constructor
  · intro hok
    rcases fieldsIn_or_refusedIn ctx region with ⟨found, hfound⟩ | ⟨oxmClass, field, hrefused⟩
    · obtain ⟨w, hrun⟩ := run_readFields_of_fieldsIn hfound
      rw [hrun] at hok
      exact Except.ok.inj hok ▸ hfound
    · exact nomatch (result_readFields_of_refusedIn hrefused c).symm.trans hok
  · intro hfields
    obtain ⟨w, hrun⟩ := run_readFields_of_fieldsIn hfields
    rw [hrun]

/-- A region holds its fields in one way only. -/
theorem FieldsIn.unique {fields' : List OxmField} (h : FieldsIn ctx region fields)
    (h' : FieldsIn ctx region fields') : fields = fields' := by
  have hrun := result_readFields_eq_ok_iff (c := Cursor.start []).mpr h
  have hrun' := result_readFields_eq_ok_iff (c := Cursor.start []).mpr h'
  exact Except.ok.inj (hrun.symm.trans hrun')

/-- **Reading a region fails where it is refused**, with the type of the first unknown field. -/
theorem result_readFields_eq_error_iff {c : Cursor} {e : Error} :
    ((readFields ctx region).run c).result = .error e ↔
      ∃ oxmClass field, RefusedIn ctx region oxmClass field ∧
        e = .unknownFieldType oxmClass field := by
  constructor
  · intro herror
    rcases fieldsIn_or_refusedIn ctx region with ⟨found, hfound⟩ | ⟨oxmClass, field, hrefused⟩
    · obtain ⟨w, hrun⟩ := run_readFields_of_fieldsIn hfound
      rw [hrun] at herror
      exact nomatch herror
    · have hresult := result_readFields_of_refusedIn hrefused c
      exact ⟨oxmClass, field, hrefused, Except.error.inj (herror.symm.trans hresult)⟩
  · rintro ⟨oxmClass, field, hrefused, rfl⟩
    exact result_readFields_of_refusedIn hrefused c

/-! ## Reading the match -/

/-- The bytes behind the header of a match that its declared length covers. -/
def fieldRegion (bs : Bytes) (declared : UInt16) : Bytes :=
  (bs.drop headerSize).take (declared.toNat - headerSize)

variable {declared : UInt16}

/-- Behind the header of a match of fields, its region is read. -/
theorem run_read_of_oxm {c : Cursor} (hpeek : Bytes.peekHeader? c.rest = some (oxmCode, declared))
    (hheader : headerSize ≤ declared.toNat) :
    (read ctx).run c = (readFields ctx (fieldRegion c.rest declared) >>= fun fields =>
      Reader.moveTo (c.advanceWithin (align8 declared.toNat)) >>= fun _ =>
        pure (ofFields fields)).run (c.advance headerSize) := by
  unfold read
  rw [Reader.run_cursor_bind, Reader.run_header_bind hpeek, if_neg (Nat.not_lt_of_le hheader),
    if_pos rfl, Reader.run_cursor_bind]
  rfl

/-- **A match is what setting the fields of its region makes**, one after the other, and reading
goes on from the end of its padding. -/
theorem run_read_of_fieldsIn {c : Cursor}
    (hpeek : Bytes.peekHeader? c.rest = some (oxmCode, declared))
    (hheader : headerSize ≤ declared.toNat)
    (h : FieldsIn ctx (fieldRegion c.rest declared) fields) :
    ∃ w, (read ctx).run c =
      ⟨.ok (ofFields fields), c.advanceWithin (align8 declared.toNat), w⟩ := by
  obtain ⟨w, hrun⟩ := run_readFields_of_fieldsIn h
  rw [run_read_of_oxm hpeek hheader, Reader.run_bind_of_ok (hrun _)]
  exact ⟨_, rfl⟩

theorem result_read_of_refusedIn {c : Cursor} {oxmClass : UInt16} {field : UInt8}
    (hpeek : Bytes.peekHeader? c.rest = some (oxmCode, declared))
    (hheader : headerSize ≤ declared.toNat)
    (h : RefusedIn ctx (fieldRegion c.rest declared) oxmClass field) :
    ((read ctx).run c).result = .error (.unknownFieldType oxmClass field) := by
  have hresult := result_readFields_of_refusedIn h (c.advance headerSize)
  rcases hrun : (readFields ctx (fieldRegion c.rest declared)).run (c.advance headerSize) with
    ⟨result, c', w⟩
  rw [hrun] at hresult
  obtain rfl : result = .error (.unknownFieldType oxmClass field) := hresult
  rw [run_read_of_oxm hpeek hheader, Reader.run_bind_of_error hrun]

/-- A match of fields is read just where its region holds fields. -/
theorem result_read_eq_ok_iff {c : Cursor} {m : Match}
    (hpeek : Bytes.peekHeader? c.rest = some (oxmCode, declared))
    (hheader : headerSize ≤ declared.toNat) :
    ((read ctx).run c).result = .ok m ↔
      ∃ fields, FieldsIn ctx (fieldRegion c.rest declared) fields ∧ m = ofFields fields := by
  constructor
  · intro hok
    rcases fieldsIn_or_refusedIn ctx (fieldRegion c.rest declared) with
      ⟨fields, hfields⟩ | ⟨oxmClass, field, hrefused⟩
    · obtain ⟨w, hrun⟩ := run_read_of_fieldsIn hpeek hheader hfields
      rw [hrun] at hok
      exact ⟨fields, hfields, (Except.ok.inj hok).symm⟩
    · exact nomatch (result_read_of_refusedIn hpeek hheader hrefused).symm.trans hok
  · rintro ⟨fields, hfields, rfl⟩
    obtain ⟨w, hrun⟩ := run_read_of_fieldsIn hpeek hheader hfields
    rw [hrun]

end Match
end OpenFlow
