import OpenFlow.Proofs.Match.Framed

/-!
# The length bytes of fields

The header of a field says in its last byte how long the field is, and where the catalog knows the
type of the field, nothing depends on this byte.  The width comes from the catalog, and whether
there is a mask, from the bit in front of the byte.  So two strings of bytes that are the same but
for the length bytes of fields of known types hold the same fields, and reading stops at the same
place, in success and in failure.  Reading a match stays with the headers even if no length byte
is right, since it goes from one field to the next by the width of the catalog.

A wrong length byte is noticed all the same.  It raises one warning when the field is read, unless
it counts the mask: twice the width, in numbers that do not wrap around, is right for a field with
a mask.  The warning comes before the payload, so a payload that is cut short does not take it
back.  A match starts to read only those fields that are there as a whole, and its warnings are
those of these fields.

Main definitions:

* `FieldCatalog.SameButLengths`: the same bytes, but for the length bytes of fields of known types.
* `FieldCatalog.warningsFor`: the warnings that a header is worth.
* `Match.started`: the headers of the fields of a region that reading a match starts to read.

Main statements:

* `OxmField.read_of_sameButLengths`, `Match.readFields_of_sameButLengths`: one field, and the
  fields of a region, do not depend on length bytes.
* `Match.warnings_readFields`: the warnings of a region.
* `Match.lengthBytes_only_warn`: all of this, for a field and for a match in a buffer.
-/

namespace OpenFlow

/-! ## Headers that differ in their length -/

/-- All but the length of a header is in the bytes of its word before the last. -/
theorem OxmHeader.ofWord_eq_withLength {w w' : UInt32} (h : w'.toNat / 256 = w.toNat / 256) :
    ofWord w' = (ofWord w).withLength (ofWord w').length := by
  have hclass : (ofWord w').oxmClass = (ofWord w).oxmClass := by
    apply UInt16.toNat_inj.mp
    rw [toNat_ofWord_oxmClass, toNat_ofWord_oxmClass]
    omega
  have hfield : (ofWord w').field = (ofWord w).field := by
    apply UInt8.toNat_inj.mp
    rw [toNat_ofWord_field, toNat_ofWord_field]
    omega
  have hmask : (ofWord w').hasMask = (ofWord w).hasMask := by
    rw [hasMask_ofWord, hasMask_ofWord, h]
  unfold withLength
  rw [← hclass, ← hfield, ← hmask]

/-- With another last byte, a header has this byte as its length, and is the same otherwise. -/
theorem OxmHeader.peek?_set_last {front : Bytes} {header : OxmHeader}
    (h : peek? front = some header) (hlength : front.length = size) (n : UInt8) :
    peek? (front.set 3 n) = some (header.withLength n) := by
  obtain ⟨b₀, b₁, b₂, b₃, rfl⟩ : ∃ b₀ b₁ b₂ b₃, front = [b₀, b₁, b₂, b₃] :=
    List.length_eq_four.mp hlength
  have hword (b : UInt8) : (UInt32.ofNat (Bytes.value [b₀, b₁, b₂, b])).toNat =
      Bytes.value [b₀, b₁, b₂] * 256 + b.toNat := by
    have hlt : Bytes.value [b₀, b₁, b₂, b] < 2 ^ 32 := Bytes.value_lt [b₀, b₁, b₂, b]
    rw [UInt32.toNat_ofNat_of_lt' hlt]
    exact Bytes.value_concat [b₀, b₁, b₂] b
  have hn := n.toNat_lt
  have hb := b₃.toNat_lt
  cases h
  change some (ofWord _) = _
  rw [ofWord_eq_withLength (w := UInt32.ofNat (Bytes.value [b₀, b₁, b₂, b₃]))]
  · congr 2
    apply UInt8.toNat_inj.mp
    rw [toNat_ofWord_length, hword]
    omega
  · rw [hword, hword]
    omega

namespace FieldCatalog

/-- Whether a catalog knows the type that a header gives. -/
def knowsTypeOf (catalog : FieldCatalog) (header : OxmHeader) : Bool :=
  catalog.knows (header.oxmClass, header.field)

variable {catalog : FieldCatalog} {header : OxmHeader}

theorem knowsTypeOf_of_some {d : FieldDescriptor}
    (h : catalog.lookup? header.oxmClass header.field = some d) :
    catalog.knowsTypeOf header = true := by
  rw [knowsTypeOf, knows, h, Option.isSome_some]

theorem knowsTypeOf_of_none (h : catalog.lookup? header.oxmClass header.field = none) :
    catalog.knowsTypeOf header = false := by
  rw [knowsTypeOf, knows, h, Option.isSome_none]

/-- Another length changes the extent only of a field of an unknown type. -/
theorem extent_withLength (h : catalog.knowsTypeOf header = true) (n : UInt8) :
    catalog.extent (header.withLength n) = catalog.extent header := by
  obtain ⟨d, hd⟩ := Option.isSome_iff_exists.mp h
  have hother : catalog.lookup? (header.withLength n).oxmClass (header.withLength n).field =
      some d := hd
  rw [extent_of_known hd, extent_of_known hother]
  rfl

/-- Two strings of bytes are the same but for the length bytes in the headers of fields of known
types.  Between these fields there may be others, which are the same. -/
inductive SameButLengths (catalog : FieldCatalog) : Bytes → Bytes → Prop
  | refl (bs : Bytes) : SameButLengths catalog bs bs
  /-- The header may have another length if its type is known.  The field behind it is the same, as
  far as it is there. -/
  | field {front front' bs bs' : Bytes} {header : OxmHeader}
      (hpeek : OxmHeader.peek? front = some header) (hlength : front.length = OxmHeader.size)
      (hfront : front' = front ∨ catalog.knowsTypeOf header = true ∧ ∃ n, front' = front.set 3 n)
      (hbody : bs'.take (catalog.extent header - OxmHeader.size) =
        bs.take (catalog.extent header - OxmHeader.size))
      (hrest : SameButLengths catalog (bs.drop (catalog.extent header - OxmHeader.size))
        (bs'.drop (catalog.extent header - OxmHeader.size))) :
      SameButLengths catalog (front ++ bs) (front' ++ bs')

/-- The warnings that a header is worth: one if its type is known and its length is neither the
width of the type nor, with a mask, twice this width. -/
def warningsFor (catalog : FieldCatalog) (header : OxmHeader) : Nat :=
  match catalog.lookup? header.oxmClass header.field with
  | some d =>
    if header.length = d.width ∨ header.hasMask ∧ header.length.toNat = 2 * d.width.toNat then 0
    else 1
  | none => 0

theorem warningsFor_of_known {d : FieldDescriptor}
    (h : catalog.lookup? header.oxmClass header.field = some d) :
    catalog.warningsFor header = if OxmField.lengthAgrees header d then 0 else 1 := by
  rw [warningsFor, h]
  simp only [OxmField.lengthAgrees, Bool.or_eq_true, Bool.and_eq_true, beq_iff_eq]

namespace SameButLengths

variable {bs bs' : Bytes}

theorem length_eq (h : SameButLengths catalog bs bs') : bs'.length = bs.length := by
  induction h with
  | refl bs => rfl
  | @field front front' bs bs' header hpeek hlength hfront hbody hrest ih =>
    have hheads : front'.length = front.length := by
      rcases hfront with rfl | ⟨-, n, rfl⟩
      · rfl
      · exact List.length_set
    have hbodies := congrArg List.length hbody
    rw [List.length_take, List.length_take] at hbodies
    rw [List.length_drop, List.length_drop] at ih
    rw [List.length_append, List.length_append, hheads]
    omega

/-- The header in front is the same but for its length, and then the field is the same. -/
theorem exists_peek? (h : SameButLengths catalog bs bs')
    (hpeek : OxmHeader.peek? bs = some header) :
    ∃ n, OxmHeader.peek? bs' = some (header.withLength n) ∧
      catalog.extent (header.withLength n) = catalog.extent header ∧
      (bs'.drop OxmHeader.size).take (catalog.extent header - OxmHeader.size) =
        (bs.drop OxmHeader.size).take (catalog.extent header - OxmHeader.size) ∧
      SameButLengths catalog (bs.drop (catalog.extent header))
        (bs'.drop (catalog.extent header)) := by
  cases h with
  | refl => exact ⟨header.length, hpeek, rfl, rfl, .refl _⟩
  | @field front front' bs bs' found hfound hlength hfront hbody hrest =>
    cases (OxmHeader.peek?_append_of_some hfound bs).symm.trans hpeek
    have hother : ∃ n, OxmHeader.peek? front' = some (header.withLength n) ∧
        catalog.extent (header.withLength n) = catalog.extent header ∧
        front'.length = OxmHeader.size := by
      rcases hfront with rfl | ⟨hknown, n, rfl⟩
      · exact ⟨header.length, hfound, rfl, hlength⟩
      · exact ⟨n, OxmHeader.peek?_set_last hfound hlength n, extent_withLength hknown n,
          List.length_set.trans hlength⟩
    obtain ⟨n, hpeek', hextent, hlength'⟩ := hother
    have hbehind (front bs : Bytes) (hlength : front.length = OxmHeader.size) :
        (front ++ bs).drop (catalog.extent header) =
          bs.drop (catalog.extent header - OxmHeader.size) := by
      rw [List.drop_append, List.drop_eq_nil_of_le (hlength ▸ catalog.size_le_extent header),
        List.nil_append, hlength]
    refine ⟨n, OxmHeader.peek?_append_of_some hpeek' bs', hextent, ?_, ?_⟩
    · rw [List.drop_left' hlength, List.drop_left' hlength', hbody]
    · rw [hbehind front bs hlength, hbehind front' bs' hlength']
      exact hrest

end SameButLengths
end FieldCatalog

/-! ## One field -/

namespace OxmField

variable {catalog : FieldCatalog} {header : OxmHeader} {c c' : Cursor}

/-- A field of a known type is read from the bytes behind its header that the catalog calls for. -/
theorem run_read_of_take_eq {f : OxmField} (hpeek : OxmHeader.peek? c.rest = some header)
    (hlookup : catalog.lookup? header.oxmClass header.field = some f.descriptor)
    (hmask : f.hasMask = header.hasMask)
    (hbody : (c.rest.drop OxmHeader.size).take (catalog.extent header - OxmHeader.size) =
      f.payload) :
    (read catalog).run c = ⟨.ok f, c.advance f.size, catalog.warningsFor header⟩ := by
  have hsize := OxmHeader.size_le_of_peek? hpeek
  have hpos : c.pos ≤ c.size := by
    rw [c.length_rest_eq_remaining] at hsize
    change 4 ≤ c.size - c.pos at hsize
    omega
  have hfront : (c.rest.take OxmHeader.size).length = OxmHeader.size :=
    List.length_take_of_le hsize
  have hrest : c.rest = c.rest.take OxmHeader.size ++ (f.payload ++
      (c.rest.drop OxmHeader.size).drop (catalog.extent header - OxmHeader.size)) := by
    rw [← hbody, List.take_append_drop, List.take_append_drop]
  rw [run_read_payload hfront (OxmHeader.peek?_take (Nat.le_refl _) hpeek) hlookup hmask
    ⟨hrest, hpos⟩, FieldCatalog.warningsFor_of_known hlookup]

/-- A field of a known type that is there as a whole has a value and a mask as it says. -/
theorem exists_payload_eq_take {d : FieldDescriptor} {bs : Bytes}
    (hlookup : catalog.lookup? header.oxmClass header.field = some d)
    (hfits : catalog.extent header ≤ bs.length) :
    ∃ f : OxmField, f.descriptor = d ∧ f.hasMask = header.hasMask ∧
      f.payload = (bs.drop OxmHeader.size).take (catalog.extent header - OxmHeader.size) := by
  refine exists_payload_eq d header.hasMask ?_
  rw [FieldCatalog.extent_of_known hlookup] at hfits ⊢
  rw [List.length_take, List.length_drop]
  omega

/-- **A field does not depend on length bytes**, nor does the place behind it; nor does what is
wrong if there is no field. -/
theorem read_of_sameButLengths (hpos : c'.pos = c.pos)
    (h : catalog.SameButLengths c.rest c'.rest) :
    ((read catalog).run c').result = ((read catalog).run c).result ∧
      ((read catalog).run c').cursor.pos = ((read catalog).run c).cursor.pos := by
  have hremaining : c'.remaining = c.remaining := by
    rw [← c'.length_rest_eq_remaining, ← c.length_rest_eq_remaining, h.length_eq]
  cases hpeek : OxmHeader.peek? c.rest with
  | none =>
    have hshort : c.remaining < OxmHeader.size :=
      c.length_rest_eq_remaining ▸ OxmHeader.length_lt_of_peek?_eq_none hpeek
    rw [run_read_of_remaining_lt catalog hshort,
      run_read_of_remaining_lt catalog (hremaining.symm ▸ hshort)]
    exact ⟨rfl, hpos⟩
  | some header =>
    obtain ⟨n, hpeek', hextent, hbody, -⟩ := h.exists_peek? hpeek
    cases hlookup : catalog.lookup? header.oxmClass header.field with
    | none =>
      rw [run_read_of_lookup?_none hpeek hlookup, run_read_of_lookup?_none hpeek' hlookup]
      exact ⟨rfl, congrArg (· + OxmHeader.size) hpos⟩
    | some d =>
      by_cases hfits : catalog.extent header ≤ c.rest.length
      · obtain ⟨f, rfl, hmask, hpayload⟩ := exists_payload_eq_take hlookup hfits
        have hpayload' : (c'.rest.drop OxmHeader.size).take
            (catalog.extent (header.withLength n) - OxmHeader.size) = f.payload := by
          rw [hextent, hbody, hpayload]
        rw [run_read_of_take_eq hpeek hlookup hmask hpayload.symm,
          run_read_of_take_eq hpeek' hlookup hmask hpayload']
        exact ⟨rfl, congrArg (· + f.size) hpos⟩
      · rw [FieldCatalog.extent_of_known hlookup, c.length_rest_eq_remaining, Nat.not_le] at hfits
        rw [run_read_of_lt hpeek hlookup hfits,
          run_read_of_lt hpeek' hlookup (hremaining.symm ▸ hfits), hremaining]
        refine ⟨rfl, ?_⟩
        split
        · exact congrArg (· + OxmHeader.size) hpos
        · exact congrArg (· + (OxmHeader.size + d.width.toNat)) hpos

/-- The warnings of a field are those of its header, whether the payload is there or not. -/
theorem warnings_read (hpeek : OxmHeader.peek? c.rest = some header) :
    ((read catalog).run c).warnings = catalog.warningsFor header := by
  cases hlookup : catalog.lookup? header.oxmClass header.field with
  | none =>
    rw [run_read_of_lookup?_none hpeek hlookup, FieldCatalog.warningsFor, hlookup]
  | some d =>
    by_cases hfits : catalog.extent header ≤ c.rest.length
    · obtain ⟨f, rfl, hmask, hpayload⟩ := exists_payload_eq_take hlookup hfits
      rw [run_read_of_take_eq hpeek hlookup hmask hpayload.symm]
    · rw [FieldCatalog.extent_of_known hlookup, c.length_rest_eq_remaining, Nat.not_le] at hfits
      rw [run_read_of_lt hpeek hlookup hfits, FieldCatalog.warningsFor_of_known hlookup]

end OxmField

/-! ## The fields of a region -/

namespace Match

variable {ctx : Context} {region region' : Bytes} {header : OxmHeader}

/-- A field of a known type that is there as a whole is read, and then what is behind it. -/
theorem run_readFields_of_known {f : OxmField} (hpeek : OxmHeader.peek? region = some header)
    (hlookup : ctx.registries.fields.lookup? header.oxmClass header.field = some f.descriptor)
    (hmask : f.hasMask = header.hasMask)
    (hbody : (region.drop OxmHeader.size).take
      (ctx.registries.fields.extent header - OxmHeader.size) = f.payload) (c : Cursor) :
    let behind := (readFields ctx (region.drop (ctx.registries.fields.extent header))).run
      (c.advance (ctx.registries.fields.extent header))
    (readFields ctx region).run c = ⟨behind.result.map (f :: ·), behind.cursor,
      ctx.registries.fields.warningsFor header + behind.warnings⟩ := by
  intro behind
  have hextent := ctx.registries.fields.size_le_extent header
  have hopens : Opens ctx (region.take OxmHeader.size) header f :=
    ⟨OxmHeader.peek?_take (Nat.le_refl _) hpeek,
      List.length_take_of_le (OxmHeader.size_le_of_peek? hpeek), hlookup, hmask⟩
  have hregion : region = region.take OxmHeader.size ++
      (f.payload ++ region.drop (ctx.registries.fields.extent header)) := by
    have hdrop : region.drop (ctx.registries.fields.extent header) =
        (region.drop OxmHeader.size).drop
          (ctx.registries.fields.extent header - OxmHeader.size) := by
      rw [List.drop_drop, Nat.add_sub_cancel' hextent]
    rw [hdrop, ← hbody, List.take_append_drop, List.take_append_drop]
  have hlength := hopens.length_append
  have hrun := run_readFields_of_opens hopens (region.drop (ctx.registries.fields.extent header)) c
  rw [← hregion, hlength] at hrun
  rw [FieldCatalog.warningsFor_of_known hlookup]
  exact hrun

/-- **The fields of a region do not depend on length bytes**, nor does a field that is refused. -/
theorem readFields_of_sameButLengths (h : ctx.registries.fields.SameButLengths region region')
    (c : Cursor) :
    ((readFields ctx region').run c).result = ((readFields ctx region).run c).result ∧
      ((readFields ctx region').run c).cursor = ((readFields ctx region).run c).cursor := by
  -- The step of both runs is by the extent of one header, so the regions stay alike.
  induction hn : region.length using Nat.strongRecOn generalizing region region' c with
  | _ n ih =>
    subst hn
    cases hpeek : OxmHeader.peek? region with
    | none =>
      have hshort : region'.length < OxmHeader.size :=
        h.length_eq ▸ OxmHeader.length_lt_of_peek?_eq_none hpeek
      rw [run_readFields_of_peek?_eq_none hpeek,
        run_readFields_of_peek?_eq_none (OxmHeader.peek?_eq_none_of_length_lt hshort)]
      exact ⟨rfl, rfl⟩
    | some header =>
      obtain ⟨n, hpeek', hextent, hbody, hrest⟩ := h.exists_peek? hpeek
      have hbehind := ih _ (by
        have hfour := OxmHeader.size_le_of_peek? hpeek
        have hsize : 4 ≤ ctx.registries.fields.extent header :=
          ctx.registries.fields.size_le_extent header
        change 4 ≤ region.length at hfour
        rw [List.length_drop]
        omega) hrest (c.advance (ctx.registries.fields.extent header)) rfl
      cases hlookup : ctx.registries.fields.lookup? header.oxmClass header.field with
      | none =>
        rw [run_readFields_of_unknown hpeek hlookup, run_readFields_of_unknown hpeek' hlookup,
          hextent, h.length_eq]
        split
        · exact ⟨rfl, rfl⟩
        · split
          · exact ⟨rfl, rfl⟩
          · exact hbehind
      | some d =>
        by_cases hlong : region.length < ctx.registries.fields.extent header
        · rw [run_readFields_of_known_lt hpeek hlookup hlong,
            run_readFields_of_known_lt hpeek' hlookup (by rwa [hextent, h.length_eq])]
          exact ⟨rfl, rfl⟩
        · obtain ⟨f, rfl, hmask, hpayload⟩ :=
            OxmField.exists_payload_eq_take hlookup (Nat.le_of_not_lt hlong)
          rw [run_readFields_of_known hpeek hlookup hmask hpayload.symm,
            run_readFields_of_known hpeek' hlookup hmask (by rw [hextent, hbody, hpayload]),
            hextent]
          exact ⟨congrArg (Except.map (f :: ·)) hbehind.1, hbehind.2⟩

/-! ## The warnings of a region -/

/-- The headers of the fields at the front of a region, of known types and of others, up to one that
would run past the end. -/
def headersIn (catalog : FieldCatalog) (region : Bytes) : List OxmHeader :=
  match OxmHeader.peek? region with
  | none => []
  | some header =>
    if catalog.extent header ≤ region.length then
      header :: headersIn catalog (region.drop (catalog.extent header))
    else []
termination_by region.length
decreasing_by
  have hsize : 4 ≤ catalog.extent header := catalog.size_le_extent header
  simp only [List.length_drop]
  omega

/-- Whether reading a match goes on at a header: its type is known, or may be passed over. -/
def goesOn (ctx : Context) (header : OxmHeader) : Bool :=
  ctx.registries.fields.knowsTypeOf header || ctx.unknownFields != .reject

/-- The headers of the fields that reading a match starts to read: those of known types, up to a
field that is refused or would run past the end. -/
def started (ctx : Context) (region : Bytes) : List OxmHeader :=
  ((headersIn ctx.registries.fields region).takeWhile (goesOn ctx)).filter
    ctx.registries.fields.knowsTypeOf

/-- **Reading a region raises the warnings of the fields that it starts to read.** -/
theorem warnings_readFields (ctx : Context) (region : Bytes) (c : Cursor) :
    ((readFields ctx region).run c).warnings =
      total ctx.registries.fields.warningsFor (started ctx region) := by
  unfold started
  fun_induction headersIn ctx.registries.fields region generalizing c with
  | case1 region hpeek =>
    rw [run_readFields_of_peek?_eq_none hpeek]
    rfl
  | case2 region header hpeek hfits ih =>
    cases hlookup : ctx.registries.fields.lookup? header.oxmClass header.field with
    | some d =>
      have hknown := FieldCatalog.knowsTypeOf_of_some hlookup
      obtain ⟨f, rfl, hmask, hpayload⟩ := OxmField.exists_payload_eq_take hlookup hfits
      rw [run_readFields_of_known hpeek hlookup hmask hpayload.symm, ih,
        List.takeWhile_cons_of_pos (by rw [goesOn, hknown, Bool.true_or]),
        List.filter_cons_of_pos hknown, total_cons]
    | none =>
      have hknown := FieldCatalog.knowsTypeOf_of_none hlookup
      rw [run_readFields_of_unknown hpeek hlookup]
      by_cases hpolicy : ctx.unknownFields = .reject
      · rw [if_pos hpolicy, List.takeWhile_cons_of_neg (by simp [goesOn, hknown, hpolicy])]
        rfl
      · rw [if_neg hpolicy, if_neg (Nat.not_lt_of_le hfits), ih,
          List.takeWhile_cons_of_pos (by simp [goesOn, hpolicy]),
          List.filter_cons_of_neg (by rw [hknown]; exact Bool.false_ne_true)]
  | case3 region header hpeek hlong =>
    cases hlookup : ctx.registries.fields.lookup? header.oxmClass header.field with
    | some d =>
      rw [run_readFields_of_known_lt hpeek hlookup (Nat.lt_of_not_le hlong)]
      rfl
    | none =>
      rw [run_readFields_of_unknown hpeek hlookup, if_pos (Nat.lt_of_not_le hlong)]
      split <;> rfl

/-! ## The length bytes of a buffer -/

theorem warnings_framed (c : Cursor) (declared : Nat) (found : Outcome (List OxmField)) :
    (framed c declared found).warnings = found.warnings := by
  unfold framed
  cases found.result <;> rfl

/-- What comes of a match and where reading stops follow from the result of its fields. -/
theorem framed_of_result_eq (c c' : Cursor) (hpos : c'.pos = c.pos) (hsize : c'.size = c.size)
    (declared : Nat) {found found' : Outcome (List OxmField)}
    (h : found'.result = found.result) (hcursor : found'.cursor = found.cursor) :
    (framed c' declared found').result = (framed c declared found).result ∧
      (framed c' declared found').cursor.pos = (framed c declared found).cursor.pos := by
  unfold framed
  rw [h, hcursor]
  cases found.result with
  | ok fields =>
    refine ⟨rfl, ?_⟩
    rw [Cursor.pos_advanceWithin, Cursor.pos_advanceWithin, hpos, hsize]
  | error e => exact ⟨rfl, congrArg (· + headerSize + found.cursor.pos) hpos⟩

/-- **Length bytes only warn.**  Where two buffers are the same but for the length bytes of fields
of known types, the same field is read from both, or the same error comes of both, and reading
stops at the same place; and so for a match of fields.  A field raises the warnings of its header,
whether its payload is there or not, and a match those of the fields that it starts to read. -/
theorem lengthBytes_only_warn (ctx : Context) (buf : Bytes) (p : Nat) :
    let catalog := ctx.registries.fields
    (∀ buf', catalog.SameButLengths (buf.drop p) (buf'.drop p) →
      let one := (OxmField.read catalog).run (Cursor.at buf p)
      let other := (OxmField.read catalog).run (Cursor.at buf' p)
      other.result = one.result ∧ other.cursor.pos = one.cursor.pos) ∧
    (∀ header, OxmHeader.peek? (buf.drop p) = some header →
      ((OxmField.read catalog).run (Cursor.at buf p)).warnings = catalog.warningsFor header) ∧
    ∀ declared, Bytes.peekHeader? (buf.drop p) = some (oxmCode, declared) →
      headerSize ≤ declared.toNat →
        let region := fieldRegion (buf.drop p) declared
        let one := (read ctx).run (Cursor.at buf p)
        one.warnings = total catalog.warningsFor (started ctx region) ∧
        ∀ buf', buf'.length = buf.length →
          Bytes.peekHeader? (buf'.drop p) = some (oxmCode, declared) →
          catalog.SameButLengths region (fieldRegion (buf'.drop p) declared) →
            let other := (read ctx).run (Cursor.at buf' p)
            other.result = one.result ∧ other.cursor.pos = one.cursor.pos := by
  intro catalog
  refine ⟨fun buf' h => ?_, fun header hpeek => ?_, fun declared hpeek hheader => ?_⟩
  · exact OxmField.read_of_sameButLengths (c := Cursor.at buf p) rfl h
  · exact OxmField.warnings_read (c := Cursor.at buf p) hpeek
  · intro region one
    have hrun {buf : Bytes} (hpeek : Bytes.peekHeader? (buf.drop p) = some (oxmCode, declared)) :
        (read ctx).run (Cursor.at buf p) = framed (Cursor.at buf p) declared.toNat
          ((readFields ctx (fieldRegion (buf.drop p) declared)).run (Cursor.start [])) :=
      run_read_eq_framed (c := Cursor.at buf p) hpeek hheader
    have hone : one = _ := hrun hpeek
    constructor
    · rw [hone, warnings_framed]
      exact warnings_readFields ctx region (Cursor.start [])
    · intro buf' hlength hpeek' h other
      have hother : other = _ := hrun hpeek'
      obtain ⟨hfields, hreached⟩ := readFields_of_sameButLengths h (Cursor.start [])
      rw [hone, hother]
      exact framed_of_result_eq (Cursor.at buf p) (Cursor.at buf' p) rfl hlength _ hfields hreached

/-- A match of an Ethernet type and of an IPv4 destination with a mask, whose headers give two
lengths. -/
def declaring (etherType destination : UInt8) : Bytes :=
  [0, 1, 0, 22, 128, 0, 10, etherType, 8, 0, 128, 0, 25, destination, 10, 0, 0, 1, 255, 255, 255, 0]

/-- One length or the other is wrong, which raises a warning and changes nothing else.  The
destination alone raises its warning also where its mask is cut short. -/
theorem lengthBytes_only_warn_declaring :
    (((read {}).run (Cursor.at (declaring 2 7) 0)).warnings = 1 ∧
      ((read {}).run (Cursor.at (declaring 9 8) 0)).result =
        ((read {}).run (Cursor.at (declaring 2 7) 0)).result) ∧
    ((OxmField.read FieldCatalog.basic).run
        (Cursor.at ((declaring 2 7).take 20) 10)).warnings = 1 ∧
      ((OxmField.read FieldCatalog.basic).run (Cursor.at ((declaring 9 8).take 20) 10)).result =
        ((OxmField.read FieldCatalog.basic).run
          (Cursor.at ((declaring 2 7).take 20) 10)).result := by
  have hdestination (bs : Bytes) : FieldCatalog.basic.SameButLengths ([128, 0, 25, 7] ++ bs)
      ([128, 0, 25, 8] ++ bs) :=
    .field rfl rfl (Or.inr ⟨by with_unfolding_all rfl, 8, rfl⟩) rfl (.refl _)
  have hboth : FieldCatalog.basic.SameButLengths ((declaring 2 7).drop 4)
      ((declaring 9 8).drop 4) :=
    @FieldCatalog.SameButLengths.field _ [128, 0, 10, 2] [128, 0, 10, 9] _ _ _ rfl rfl
      (Or.inr ⟨by with_unfolding_all rfl, 9, rfl⟩) rfl
      (hdestination [10, 0, 0, 1, 255, 255, 255, 0])
  constructor
  · obtain ⟨-, -, hmatch⟩ := lengthBytes_only_warn {} (declaring 2 7) 0
    obtain ⟨hwarnings, hother⟩ := hmatch 22 rfl (by decide)
    refine ⟨hwarnings.trans ?_, (hother (declaring 9 8) rfl rfl hboth).1⟩
    with_unfolding_all rfl
  · obtain ⟨hother, hwarnings, -⟩ := lengthBytes_only_warn {} ((declaring 2 7).take 20) 10
    refine ⟨(hwarnings _ rfl).trans ?_, (hother ((declaring 9 8).take 20) ?_).1⟩
    · with_unfolding_all rfl
    · exact hdestination [10, 0, 0, 1, 255, 255]

end Match
end OpenFlow
