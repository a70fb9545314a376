import OpenFlow.Proofs.Element.Recovery
import OpenFlow.Proofs.Element.RoundTrip

/-!
# Lists with elements of types that are not known

Where fewer types are known than an element was written with, it is read as one of an
unknown code, and a set-field action around a field of an unknown type keeps its body.
Both can happen at once, and at both levels of an instruction with actions.  Either way
nothing is lost: the codes stay, and writing the list again gives the same bytes.

Main statement:

* `Element.readList_of_partOf`: a list of well-formed elements, read with any part of what
  is known.
-/

namespace OpenFlow

variable {ctx : Context}

/-! ## Elements of unknown codes

The header of a queue property ends in padding, and that of a meter band in its rate and its
burst size.  In the other families it has the code and the length only.
-/

namespace Action

instance : Element.KeepsBody Action where
  writeRest _ := Writer.skip
  unknown a declared body := unknown a.code declared body
  uniform_writeRest _ := inferInstance
  spans_writeRest _ := Writer.Spans.skip
  write_eq a := ⟨a.writeBody, inferInstance, rfl⟩
  code_unknown _ _ _ := rfl
  length_unknown _ _ _ h := Nat.max_eq_left (h ▸ Nat.le_add_right _ _)
  write_unknown _ _ _ h := ⟨_, inferInstance, Element.encode_fitted h, rfl⟩
  read_unknown _ _ _ _ _ := rfl
  readsBack_unknown _ _ _ hform h := readsBack_of_sameForm hform h

end Action

namespace Instruction

instance : Element.KeepsBody Instruction where
  writeRest _ := Writer.skip
  unknown i declared body := unknown i.code declared body
  uniform_writeRest _ := inferInstance
  spans_writeRest _ := Writer.Spans.skip
  write_eq i := ⟨i.writeBody, inferInstance, rfl⟩
  code_unknown _ _ _ := rfl
  length_unknown _ _ _ h := Nat.max_eq_left (h ▸ Nat.le_add_right _ _)
  write_unknown _ _ _ h := ⟨_, inferInstance, Element.encode_fitted h, rfl⟩
  read_unknown _ _ _ _ _ := rfl
  readsBack_unknown _ _ _ hform h := readsBack_of_sameForm hform h

end Instruction

namespace QueueProperty

instance : Element.KeepsBody QueueProperty where
  writeRest _ := Writer.zeros 4
  unknown p declared body := unknown p.code declared body
  uniform_writeRest _ := inferInstance
  spans_writeRest _ := Writer.Spans.zeros 4
  write_eq p := ⟨p.writeBody, inferInstance, Writer.append_assoc _ _ _⟩
  code_unknown _ _ _ := rfl
  length_unknown _ _ _ h := Nat.max_eq_left (h ▸ Nat.le_add_right _ _)
  write_unknown _ _ _ h :=
    ⟨_, inferInstance, Element.encode_fitted h, Writer.append_assoc _ _ _⟩
  read_unknown _ _ _ _ _ := rfl
  readsBack_unknown _ _ _ hform h := readsBack_of_sameForm hform h

end QueueProperty

namespace HelloElement

instance : Element.KeepsBody HelloElement where
  writeRest _ := Writer.skip
  unknown e declared body := unknown e.code declared body
  uniform_writeRest _ := inferInstance
  spans_writeRest _ := Writer.Spans.skip
  write_eq e := ⟨e.writeBody, inferInstance, rfl⟩
  code_unknown _ _ _ := rfl
  length_unknown _ _ _ h := h.symm
  write_unknown _ _ body _ := ⟨_, inferInstance, Writer.encode_bytes body, rfl⟩
  read_unknown _ _ _ _ _ := rfl
  readsBack_unknown _ _ _ hform h := readsBack_of_sameForm hform h

end HelloElement

namespace MeterBand

instance : Element.KeepsBody MeterBand where
  writeRest b := Writer.u32 b.rate ++ Writer.u32 b.burstSize
  unknown b declared body := ⟨b.rate, b.burstSize, .unknown b.code declared body⟩
  uniform_writeRest _ := inferInstance
  spans_writeRest _ := Writer.Spans.append (Writer.Spans.u32 _) (Writer.Spans.u32 _)
  write_eq b := by
    refine ⟨writeEffect b.effect, inferInstance, ?_⟩
    rw [Writer.append_assoc]
    exact write_eq b
  code_unknown _ _ _ := rfl
  length_unknown _ _ _ h := Nat.max_eq_left (h ▸ Nat.le_add_right _ _)
  write_unknown _ _ _ h := by
    refine ⟨_, inferInstance, Element.encode_fitted h, ?_⟩
    rw [Writer.append_assoc]
    exact write_eq _
  read_unknown _ _ _ _ _ := rfl
  readsBack_unknown _ _ _ hform h := readsBack_of_sameForm hform h

end MeterBand

namespace TableProperty

instance : Element.KeepsBody TableProperty where
  writeRest _ := Writer.skip
  unknown p declared body := unknown p.code declared body
  uniform_writeRest _ := inferInstance
  spans_writeRest _ := Writer.Spans.skip
  write_eq p := ⟨p.writeBody, inferInstance, rfl⟩
  code_unknown _ _ _ := rfl
  length_unknown _ _ _ h := h.symm
  write_unknown _ _ body _ := ⟨_, inferInstance, Writer.encode_bytes body, rfl⟩
  read_unknown _ _ _ _ _ := rfl
  readsBack_unknown _ _ _ hform h := readsBack_of_sameForm hform h

end TableProperty

/-! ## Elements of known codes -/

namespace QueueProperty

/-- A well-formed property is recovered with any part of what is known. -/
theorem recovers (hreg : ctx.registries.PartOf .standard) {p : QueueProperty}
    (h : p.WellFormed) : Element.Recovers ctx p := by
  refine Element.recovers_of_partOf rfl rfl hreg.queueProperties fun hknown => ?_
  exact (readsBack_of_sameForm (sameForm hknown h) h.keepsLength).recovers

end QueueProperty

namespace HelloElement

/-- A well-formed element is recovered with any part of what is known. -/
theorem recovers (hreg : ctx.registries.PartOf .standard) {e : HelloElement}
    (h : e.WellFormed) : Element.Recovers ctx e := by
  refine Element.recovers_of_partOf rfl rfl hreg.helloElements fun hknown => ?_
  exact (readsBack_of_sameForm (sameForm hknown h) h.keepsLength).recovers

end HelloElement

namespace MeterBand

/-- A well-formed band is recovered with any part of what is known. -/
theorem recovers (hreg : ctx.registries.PartOf .standard) {b : MeterBand}
    (h : b.WellFormed) : Element.Recovers ctx b := by
  refine Element.recovers_of_partOf rfl rfl hreg.meterBands fun hknown => ?_
  exact (readsBack_of_sameForm (sameForm hknown h) h.keepsLength).recovers

end MeterBand

namespace TableProperty

/-- A well-formed property is recovered with any part of what is known. -/
theorem recovers (hreg : ctx.registries.PartOf .standard) (hlimit : ctx.elementLimit = none)
    {p : TableProperty} (h : p.WellFormed) : Element.Recovers ctx p := by
  refine Element.recovers_of_partOf rfl rfl hreg.tableProperties fun hknown => ?_
  exact (readsBack_of_sameForm (sameForm hknown h) (h.legible hlimit)).recovers

end TableProperty

namespace Action

/-- A set-field action around a field of an unknown type is recovered, as one that keeps its
body. -/
theorem recovers_setField (hskip : ctx.unknownFields = .skip) {field : OxmField}
    (hcode : field.descriptor.field < 128)
    (hform : Element.SameForm ctx (setField (.known field)))
    (h : ctx.registries.fields.lookup? field.descriptor.oxmClass field.descriptor.field = none) :
    Element.Recovers ctx (setField (.known field)) := by
  intro bs hbs
  obtain ⟨hlt, hlen, -⟩ := Element.of_encode_eq_ok hbs
  obtain ⟨as, has, body, hbody, rfl⟩ := Writer.encode_append_eq_ok_iff.mp hbs
  have hcontent : (SetField.known field).write.encode = .ok body := hbody
  rw [SetField.write_known] at hcontent
  have hfront := (Element.spans_writeHeader hlt).length_eq has
  have hlength : (setField (.raw body)).length = (setField (.known field)).length := by
    rw [List.length_append, hfront] at hlen
    exact hlen
  refine ⟨setField (.raw body), rfl, ?_, ?_⟩
  · change (Element.writeHeader 25 (setField (.raw body)).length ++
      (SetField.raw body).write).encode = _
    rw [hlength, SetField.write_raw]
    exact Writer.encode_append_of_ok has (Writer.encode_bytes body)
  · refine readsBack_of_sameForm (fun n => hform n) ⟨hskip, field.header, ?_, h⟩
    exact OxmField.peek?_of_encode hcode hcontent

/-- A well-formed action is recovered with any part of what is known. -/
theorem recovers (hreg : ctx.registries.PartOf .standard) (hskip : ctx.unknownFields = .skip)
    {a : Action} (h : a.WellFormed) : Element.Recovers ctx a := by
  refine Element.recovers_of_partOf rfl rfl hreg.actions fun hknown => ?_
  have hform := sameForm hknown h
  cases a with
  | setField content =>
    obtain ⟨field, hbasic, hmade⟩ := h
    obtain rfl := eq_known_of_settingField hmade
    have hfinds := hbasic.finds FieldCatalog.holds_basic
    cases hlookup : ctx.registries.fields.lookup? field.descriptor.oxmClass
      field.descriptor.field with
    | none => exact recovers_setField hskip hfinds.field_lt hform hlookup
    | some d =>
      have hholds := hreg.fields.holds hfinds.holds hlookup
      exact (readsBack_of_sameForm hform ⟨hholds, hfinds.field_lt⟩).recovers
  | unknown code length body => exact (readsBack_of_sameForm hform h.2).recovers
  | _ => exact (readsBack_of_sameForm hform trivial).recovers

end Action

namespace Instruction

/-- Actions that are recovered stand behind the same header as before. -/
theorem exists_recovered_actions {actions : List Action} {code : UInt16} {bs : Bytes}
    (h : ∀ a ∈ actions, Element.Recovers ctx a)
    (hbs : (Element.writeHeader code (actionsOffset + Element.listLength actions) ++
      (Writer.zeros 4 ++ Element.writeList actions)).encode = .ok bs) :
    ∃ actions' : List Action,
      (Element.writeHeader code (actionsOffset + Element.listLength actions') ++
        (Writer.zeros 4 ++ Element.writeList actions')).encode = .ok bs ∧
      ∀ a ∈ actions', Element.ReadsBack ctx a := by
  obtain ⟨as, has, cs, hcs, rfl⟩ := Writer.encode_append_eq_ok_iff.mp hbs
  obtain ⟨xs, hxs, ys, hys, rfl⟩ := Writer.encode_append_eq_ok_iff.mp hcs
  obtain ⟨actions', -, hys', hback⟩ := Element.exists_recovered h hys
  have hlength : Element.listLength actions' = Element.listLength actions := by
    have hspans := Element.spans_writeList (Element.length_lt_of_encode_writeList hys)
    have hspans' := Element.spans_writeList (Element.length_lt_of_encode_writeList hys')
    rw [← hspans.length_eq hys, ← hspans'.length_eq hys']
  refine ⟨actions', ?_, hback⟩
  rw [hlength]
  exact Writer.encode_append_of_ok has (Writer.encode_append_of_ok hxs hys')

/-- A well-formed instruction is recovered with any part of what is known, its actions with
it. -/
theorem recovers (hreg : ctx.registries.PartOf .standard) (hskip : ctx.unknownFields = .skip)
    (hlimit : ctx.elementLimit = none) {i : Instruction} (h : i.WellFormed) :
    Element.Recovers ctx i := by
  refine Element.recovers_of_partOf rfl rfl hreg.instructions fun hknown => ?_
  have hform := sameForm hknown h
  have hactions {actions : List Action} (hwf : ∀ a ∈ actions, a.WellFormed) :
      ∀ a ∈ actions, Element.Recovers ctx a := by
    intro a ha
    exact Action.recovers hreg hskip (hwf a ha)
  cases i with
  | writeActions actions =>
    intro bs hbs
    obtain ⟨actions', hwrite, hback⟩ := exists_recovered_actions (hactions h) hbs
    have hform' : Element.SameForm ctx (writeActions actions') := fun n => hform n
    exact ⟨writeActions actions', rfl, hwrite,
      readsBack_of_sameForm hform' ⟨.of_unlimited hlimit _, hback⟩⟩
  | applyActions actions =>
    intro bs hbs
    obtain ⟨actions', hwrite, hback⟩ := exists_recovered_actions (hactions h) hbs
    have hform' : Element.SameForm ctx (applyActions actions') := fun n => hform n
    exact ⟨applyActions actions', rfl, hwrite,
      readsBack_of_sameForm hform' ⟨.of_unlimited hlimit _, hback⟩⟩
  | unknown code length body => exact (readsBack_of_sameForm hform h.2).recovers
  | _ => exact (readsBack_of_sameForm hform trivial).recovers

end Instruction

/-! ## Lists -/

/-- In every family, a well-formed element is recovered with any part of what is known. -/
theorem Family.recovers (hreg : ctx.registries.PartOf .standard)
    (hskip : ctx.unknownFields = .skip) (hlimit : ctx.elementLimit = none) (F : Family)
    {e : F.Member} (h : F.WellFormed e) : Element.Recovers ctx e := by
  cases F with
  | action => exact Action.recovers hreg hskip h
  | instruction => exact Instruction.recovers hreg hskip hlimit h
  | queueProperty => exact QueueProperty.recovers hreg h
  | helloElement => exact HelloElement.recovers hreg h
  | meterBand => exact MeterBand.recovers hreg h
  | tableProperty => exact TableProperty.recovers hreg hlimit h
  | elementId => exact (ElementId.readsBack h).recovers

namespace Element

/-- **What is not known passes through unchanged**, in every family: where any codes and any
field types have been forgotten, the wire form of well-formed elements is read as a list of
as many elements with the same codes, in the same order, and writing this list gives the same
bytes again. -/
theorem readList_of_partOf (ctx : Context) (hreg : ctx.registries.PartOf .standard)
    (hskip : ctx.unknownFields = .skip) (hlimit : ctx.elementLimit = none) (F : Family)
    (es : List F.Member) (hes : ∀ e ∈ es, F.WellFormed e) (b : Bytes)
    (hb : (writeList es).encode = .ok b) (p s : Bytes) :
    ∃ es' : List F.Member,
      (readList ctx b.length : Reader (List F.Member)).run (Cursor.at (p ++ b ++ s) p.length) =
        ⟨.ok es', Cursor.at (p ++ b ++ s) (p.length + b.length), 0⟩ ∧
      es'.map code = es.map code ∧ (writeList es').encode = .ok b := by
  have hrecovers : ∀ e ∈ es, Recovers ctx e := by
    intro e he
    exact F.recovers hreg hskip hlimit (hes e he)
  obtain ⟨es', hcodes, hwrite, hback⟩ := exists_recovered hrecovers hb
  exact ⟨es', run_readList_at (.of_unlimited hlimit _) hback hwrite p s, hcodes, hwrite⟩

/-- A context that has forgotten all field types, two actions and two instructions, going to a
table among them. -/
def forgetful : Context where
  registries := { Registries.standard with
    fields := .empty
    actions := [11, 22].foldl Registry.unregister Action.types
    instructions := [1, 5].foldl Registry.unregister Instruction.types }

theorem partOf_forgetful : forgetful.registries.PartOf .standard where
  fields := by
    intro oxmClass field f h
    exact nomatch h
  actions := Registry.partOf_foldl_unregister _ _
  instructions := Registry.partOf_foldl_unregister _ _
  queueProperties := Registry.PartOf.refl _
  helloElements := Registry.PartOf.refl _
  meterBands := Registry.PartOf.refl _
  tableProperties := Registry.PartOf.refl _

/-- A set-field action on a field of a forgotten type, an action of an unknown code and a
forgotten instruction pass through. -/
theorem readList_of_partOf_forgetful :
    ∃ es' : List Instruction,
      (readList forgetful 40 : Reader (List Instruction)).run
          (Cursor.at ([9] ++ [0, 3, 0, 32, 0, 0, 0, 0, 0, 25, 0, 16, 0x80, 0, 0x0a, 2, 8, 0, 0, 0,
            0, 0, 0, 0, 0x12, 0x34, 0, 8, 1, 2, 3, 4, 0, 1, 0, 8, 7, 0, 0, 0] ++ [9]) 1) =
        ⟨.ok es', Cursor.at ([9] ++ [0, 3, 0, 32, 0, 0, 0, 0, 0, 25, 0, 16, 0x80, 0, 0x0a, 2, 8,
            0, 0, 0, 0, 0, 0, 0, 0x12, 0x34, 0, 8, 1, 2, 3, 4, 0, 1, 0, 8, 7, 0, 0, 0] ++ [9]) 41,
          0⟩ ∧
      es'.map code = [3, 1] ∧ (writeList es').encode = .ok [0, 3, 0, 32, 0, 0, 0, 0, 0, 25, 0, 16,
        0x80, 0, 0x0a, 2, 8, 0, 0, 0, 0, 0, 0, 0, 0x12, 0x34, 0, 8, 1, 2, 3, 4, 0, 1, 0, 8, 7, 0, 0,
        0] :=
  readList_of_partOf forgetful partOf_forgetful rfl rfl .instruction someInstructions
    wellFormed_someInstructions _ rfl [9] [9]

end Element
end OpenFlow
