import OpenFlow.Proofs.Element.Lawful
import OpenFlow.Proofs.Oxm.Field

/-!
# Elements of types that are not known

A registry may know fewer codes than the one that an element was written for.  The element
then comes back in another form: as one of an unknown code, with the body that stood on
the wire.  What matters is that the form has the same code and the same wire form, and
that reading gives just it.

Main definitions:

* `Registry.PartOf`, `FieldCatalog.PartOf`: to know less, and nothing else.
* `Element.Recovers`: what is read for an element has its code and its wire form.
* `Element.KeepsBody`: a family that keeps what follows the header of an element whose code
  is not known.

Main statements:

* `Registry.partOf_unregister`: forgetting codes leaves a part of what was known.
* `Element.recovers_of_partOf`: it is enough to look at the codes that are known.
* `Element.exists_recovered`: the elements of a list are recovered together.
-/

namespace OpenFlow

/-! ## To know less -/

namespace Registry

variable {ε : Type} {r s t : Registry ε}

/-- All that a registry knows, another one knows alike. -/
def PartOf (r s : Registry ε) : Prop :=
  ∀ code blank, r.lookup? code = some blank → s.lookup? code = some blank

theorem PartOf.refl (r : Registry ε) : r.PartOf r := fun _ _ h => h

theorem PartOf.trans (h : r.PartOf s) (h' : s.PartOf t) : r.PartOf t := by
  intro code blank hlookup
  exact h' code blank (h code blank hlookup)

/-- A registry that forgets a code knows a part of what it knew. -/
theorem partOf_unregister (r : Registry ε) (code : UInt16) : (r.unregister code).PartOf r := by
  intro code' blank h
  rw [lookup?_unregister] at h
  by_cases hcode : code = code'
  · rw [if_pos hcode] at h
    cases h
  · rwa [if_neg hcode] at h

/-- The same for any codes, one after the other. -/
theorem partOf_foldl_unregister (codes : List UInt16) (r : Registry ε) :
    (codes.foldl unregister r).PartOf r := by
  induction codes generalizing r with
  | nil => exact PartOf.refl r
  | cons code codes ih => exact (ih (r.unregister code)).trans (partOf_unregister r code)

end Registry

namespace FieldCatalog

/-- All that a catalog knows, another one knows alike. -/
def PartOf (c d : FieldCatalog) : Prop :=
  ∀ oxmClass field f, c.lookup? oxmClass field = some f → d.lookup? oxmClass field = some f

/-- What a catalog finds for the type of a descriptor that a larger one holds is that
descriptor. -/
theorem PartOf.holds {c d : FieldCatalog} (h : c.PartOf d) {f f' : FieldDescriptor}
    (hf : d.Holds f) (hlookup : c.lookup? f.oxmClass f.field = some f') : c.Holds f := by
  have hsame : some f = some f' := hf.symm.trans (h _ _ _ hlookup)
  obtain rfl := Option.some.inj hsame
  exact hlookup

end FieldCatalog

namespace Registries

/-- The catalog and the registries of all elements know no more than others do. -/
structure PartOf (r s : Registries) : Prop where
  fields : r.fields.PartOf s.fields
  actions : r.actions.PartOf s.actions
  instructions : r.instructions.PartOf s.instructions
  queueProperties : r.queueProperties.PartOf s.queueProperties
  helloElements : r.helloElements.PartOf s.helloElements
  meterBands : r.meterBands.PartOf s.meterBands
  tableProperties : r.tableProperties.PartOf s.tableProperties

end Registries

namespace Element

variable {ε : Type} [Element ε]

/-! ## Recovery -/

/-- From the wire form of an element comes, whether its type is known or not, an element of
the same code and the same wire form, which is read back. -/
def Recovers (ctx : Context) (e : ε) : Prop :=
  ∀ bs, (write e).encode = .ok bs →
    ∃ e' : ε, code e' = code e ∧ (write e').encode = .ok bs ∧ ReadsBack ctx e'

variable {ctx : Context}

/-- An element that is read back is recovered as itself. -/
theorem ReadsBack.recovers {e : ε} (h : ReadsBack ctx e) : Recovers ctx e := by
  intro bs hbs
  exact ⟨e, rfl, hbs, h⟩

/-- A family that keeps what follows the header of an element whose code is not known. -/
class KeepsBody (ε : Type) [Element ε] where
  /-- What a header of the family holds beside the code and the length. -/
  writeRest : ε → Writer
  /-- The element of an unknown code with the header of another element, a length and a body. -/
  unknown : ε → UInt16 → Bytes → ε
  uniform_writeRest (e : ε) : Writer.Uniform (writeRest e)
  spans_writeRest (e : ε) : Writer.Spans (writeRest e) (headerSize ε - commonHeaderSize)
  write_eq (e : ε) : ∃ body : Writer, Writer.Uniform body ∧
    write e = writeHeader (code e) (length e) ++ (writeRest e ++ body)
  code_unknown (e : ε) (declared : UInt16) (body : Bytes) : code (unknown e declared body) = code e
  length_unknown (e : ε) {declared : UInt16} {body : Bytes}
    (h : declared.toNat = headerSize ε + body.length) :
    length (unknown e declared body) = declared.toNat
  write_unknown (e : ε) {declared : UInt16} {body : Bytes}
    (h : declared.toNat = headerSize ε + body.length) :
    ∃ w : Writer, Writer.Uniform w ∧ w.encode = .ok body ∧ write (unknown e declared body) =
      writeHeader (code e) (length (unknown e declared body)) ++ (writeRest e ++ w)
  read_unknown (ctx : Context) (e : ε) (declared n : UInt16) (body : Bytes) :
    read ctx (generic (code e) n) = read ctx (unknown e declared body)
  readsBack_unknown {ctx : Context} (e : ε) {declared : UInt16} {body : Bytes}
    (hform : SameForm ctx (unknown e declared body))
    (h : declared.toNat = headerSize ε + body.length) : ReadsBack ctx (unknown e declared body)

variable [Lawful ε]

/-- **An element whose code is not known is recovered**, as one that keeps its body. -/
theorem recovers_of_lookup_none [KeepsBody ε] {types : Registry ε}
    (htypes : registry? ctx.registries = some types) {e : ε}
    (h : types.lookup? (code e) = none) : Recovers ctx e := by
  intro bs hbs
  obtain ⟨hlt, hlen, -⟩ := of_encode_eq_ok hbs
  obtain ⟨w, hw, hwrite⟩ := KeepsBody.write_eq e
  have hrest := KeepsBody.uniform_writeRest e
  rw [hwrite] at hbs
  obtain ⟨as, has, cs, hcs, rfl⟩ := Writer.encode_append_eq_ok_iff.mp hbs
  obtain ⟨xs, hxs, body, hbody, rfl⟩ := Writer.encode_append_eq_ok_iff.mp hcs
  -- The header takes what headers of the family take, and the body what is left.
  have hdeclared : (UInt16.ofNat (length e)).toNat = length e := UInt16.toNat_ofNat_of_lt' hlt
  have hfront : as.length = commonHeaderSize := (spans_writeHeader hlt).length_eq has
  have hmiddle := (KeepsBody.spans_writeRest e).length_eq hxs
  have hheader := Framed.commonHeaderSize_le (ε := ε)
  have hsize : (UInt16.ofNat (length e)).toNat = headerSize ε + body.length := by
    rw [List.length_append, List.length_append] at hlen
    omega
  have hform : SameForm ctx (KeepsBody.unknown e (UInt16.ofNat (length e)) body) := by
    intro n
    rw [KeepsBody.code_unknown, blank_of_lookup_none htypes h]
    exact KeepsBody.read_unknown ctx e _ n body
  refine ⟨KeepsBody.unknown e (UInt16.ofNat (length e)) body, KeepsBody.code_unknown _ _ _, ?_,
    KeepsBody.readsBack_unknown e hform hsize⟩
  obtain ⟨v, hv, hvbody, hunknown⟩ := KeepsBody.write_unknown e hsize
  rw [hunknown, KeepsBody.length_unknown e hsize, hdeclared]
  exact Writer.encode_append_of_ok has (Writer.encode_append_of_ok hxs hvbody)

omit [Lawful ε] in
/-- A code that a part of the standard registry knows is known as it is there. -/
theorem knowsType_of_partOf {types known : Registry ε}
    (htypes : registry? ctx.registries = some types)
    (hknown : registry? Registries.standard = some known) (h : types.PartOf known) {e b : ε}
    (hlookup : types.lookup? (code e) = some b) : KnowsType ctx e := by
  intro declared
  rw [blank_of_lookup htypes hlookup, blank_of_lookup hknown (h _ _ hlookup)]

/-- An element is recovered with a part of the standard registry if it is recovered where its
type is known. -/
theorem recovers_of_partOf [KeepsBody ε] {types known : Registry ε}
    (htypes : registry? ctx.registries = some types)
    (hknown : registry? Registries.standard = some known) (hpart : types.PartOf known) {e : ε}
    (h : KnowsType ctx e → Recovers ctx e) : Recovers ctx e := by
  cases hlookup : types.lookup? (code e) with
  | none => exact recovers_of_lookup_none htypes hlookup
  | some b => exact h (knowsType_of_partOf htypes hknown hpart hlookup)

/-! ## Lists -/

/-- **The elements of a list are recovered together**: one for each of them, with the same codes
and the same wire form of the list. -/
theorem exists_recovered {es : List ε} (h : ∀ e ∈ es, Recovers ctx e) {bs : Bytes}
    (hbs : (writeList es).encode = .ok bs) :
    ∃ es' : List ε, es'.map code = es.map code ∧ (writeList es').encode = .ok bs ∧
      ∀ e' ∈ es', ReadsBack ctx e' := by
  induction es generalizing bs with
  | nil =>
    refine ⟨[], rfl, hbs, ?_⟩
    intro e' he'
    cases he'
  | cons e es ih =>
    obtain ⟨xs, hxs, ys, hys, rfl⟩ := Writer.encode_each_cons_eq_ok_iff.mp hbs
    obtain ⟨as, has, rfl⟩ := Writer.encode_padded_eq_ok_iff.mp hxs
    obtain ⟨e', hcode, hwrite, hback⟩ := h e (List.mem_cons_self ..) as has
    obtain ⟨es', hcodes, hwrites, hbacks⟩ := ih (fun d hd => h d (List.mem_cons_of_mem e hd)) hys
    refine ⟨e' :: es', ?_, ?_, ?_⟩
    · rw [List.map_cons, List.map_cons, hcode, hcodes]
    · have hpadded : (Writer.padded (occupied ε) (write e')).encode =
          .ok (as ++ Bytes.zeros (occupied ε as.length - as.length)) :=
        Writer.encode_padded_eq_ok_iff.mpr ⟨as, hwrite, rfl⟩
      exact Writer.encode_each_cons_eq_ok_iff.mpr ⟨_, hpadded, ys, hwrites, rfl⟩
    · intro d hd
      rcases List.mem_cons.mp hd with rfl | hd
      · exact hback
      · exact hbacks d hd

end Element
end OpenFlow
