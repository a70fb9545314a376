import OpenFlow.Proofs.Element.Lawful
import OpenFlow.Proofs.Oxm.Field

/-!
# Actions, written and read back

Every action is written with as many bytes as it declares.  An action is read back if it
is well formed: a set-field action has to come from a field of the basic class, and an
action of an unknown code has to have a body of the length that it declares.  The
padding of a set-field action is written behind its field and never looked at.  An action
may also hold the body around a field of a type that the catalog does not know; no field
makes such an action, but it comes from reading one.

Main statements:

* `Action.readsBack_of_sameForm`: an action is read back where what it holds is.
* `Action.readsBack`: a well-formed action is read back.
-/

namespace OpenFlow

/-! ## What is written -/

namespace SetField

instance (content : SetField) : Writer.Uniform content.writeContent := by
  cases content <;> unfold writeContent <;> infer_instance

instance (content : SetField) : Writer.Uniform content.write :=
  inferInstanceAs (Writer.Uniform (Writer.padded _ content.writeContent))

/-- The zeros behind a field fill the action up to eight bytes. -/
theorem write_known (field : OxmField) : (known field).write =
    field.write ++ Writer.zeros (padding8 (Element.commonHeaderSize + field.size)) := by
  have hpad := add_padding8 (Element.commonHeaderSize + field.size)
  have hzeros : align8 (Element.commonHeaderSize + field.size) - Element.commonHeaderSize -
      field.size = padding8 (Element.commonHeaderSize + field.size) := by
    omega
  rw [← hzeros]
  exact Writer.padded_eq_append (OxmField.spans_write field)

/-- There are none behind a body that was kept. -/
theorem write_raw (body : Bytes) : (raw body).write = Writer.bytes body := by
  have hzeros : (raw body).length - Element.commonHeaderSize - body.length = 0 := by
    change Element.commonHeaderSize + body.length - Element.commonHeaderSize - body.length = 0
    omega
  have happend : (raw body).write = Writer.bytes body ++ Writer.zeros _ :=
    Writer.padded_eq_append (Writer.Spans.bytes rfl)
  rw [happend, hzeros]
  exact Writer.append_skip _

end SetField

namespace Action

instance (a : Action) : Writer.Uniform a.writeBody := by
  cases a <;> unfold writeBody <;> infer_instance

/-- The content of a set-field action fills its length. -/
theorem spans_write_setField (content : SetField) :
    Writer.Spans content.write (content.length - Element.commonHeaderSize) := by
  cases content with
  | known field =>
    rw [SetField.write_known]
    refine Writer.Spans.of_size_eq (Writer.Spans.append (OxmField.spans_write field)
      (Writer.Spans.zeros _)) ?_
    have hpad := add_padding8 (Element.commonHeaderSize + field.size)
    change _ = align8 (Element.commonHeaderSize + field.size) - Element.commonHeaderSize
    omega
  | raw body =>
    rw [SetField.write_raw]
    exact Writer.Spans.bytes (Nat.add_sub_cancel_left _ _).symm

/-- What follows the header of an action fills the length that it declares. -/
theorem spans_writeBody (a : Action) :
    Writer.Spans a.writeBody (a.length - Element.commonHeaderSize) := by
  cases a with
  | output port maxLen =>
    exact (Writer.Spans.append (Writer.Spans.append (Writer.Spans.u32 port)
      (Writer.Spans.u16 maxLen)) (Writer.Spans.zeros 6)).of_size_eq rfl
  | setMplsTtl ttl | setNwTtl ttl =>
    exact (Writer.Spans.append (Writer.Spans.u8 ttl) (Writer.Spans.zeros 3)).of_size_eq rfl
  | pushVlan etherType | pushMpls etherType | popMpls etherType | pushPbb etherType =>
    exact (Writer.Spans.append (Writer.Spans.u16 etherType) (Writer.Spans.zeros 2)).of_size_eq rfl
  | setQueue id | group id => exact Writer.Spans.u32 id
  | setField content => exact spans_write_setField content
  | unknown code length body => exact Element.spans_unknown length _ body
  | copyTtlOut | copyTtlIn | decMplsTtl | popVlan | decNwTtl | popPbb =>
    exact Writer.Spans.zeros 4

theorem commonHeaderSize_le_length (a : Action) : Element.commonHeaderSize ≤ a.length := by
  cases a with
  | setField content =>
    cases content with
    | known field => exact Nat.le_trans (Nat.le_add_right _ _) (le_align8 _)
    | raw body => exact Nat.le_add_right _ _
  | unknown code length body => exact Nat.le_max_right _ _
  | _ => exact Nat.le_of_ble_eq_true rfl

instance : Element.Lawful Action where
  write_eq a := ⟨a.writeBody, inferInstance, rfl⟩
  headerSize_le_length := commonHeaderSize_le_length
  spans_write {a} h :=
    Element.spans_write_of_body h (commonHeaderSize_le_length a) (spans_writeBody a)

/-! ## What is read back -/

/-- An action that its wire form determines: a set-field action is made from a field of a
basic type, and an action of an unknown code has the length that it declares. -/
def WellFormed : Action → Prop
  | setField content =>
    ∃ field : OxmField, field.IsBasic ∧ settingField field = .ok (setField content)
  | unknown code length body =>
    types.lookup? code = none ∧ length.toNat = Element.commonHeaderSize + body.length
  | _ => True

/-- A set-field action is made by wrapping its field. -/
theorem eq_known_of_settingField {field : OxmField} {content : SetField}
    (h : settingField field = .ok (setField content)) : content = .known field := by
  unfold settingField at h
  rcases hcheck : field.descriptor.check .setField with e | u
  · rw [hcheck] at h
    exact nomatch h
  · rw [hcheck] at h
    exact (Action.setField.inj (Except.ok.inj h)).symm

variable {ctx : Context}

/-- The field of a set-field action, as far as its padding. -/
theorem agree_setField {field : OxmField} (h : ctx.registries.fields.Finds field.descriptor)
    (c : Cursor) (tail : Bytes) :
    Agree field.write (SetField.read ctx) c field.size tail (.known field) := by
  have hfield := OxmField.agree _ field h c tail
  refine Agree.cursor ?_
  refine Agree.peek hfield.spans (Nat.le_add_right _ _) fun _ => ?_
  exact Agree.attempt hfield rfl

/-- The body around a field of a type that the catalog does not know. -/
theorem agree_setField_raw (hskip : ctx.unknownFields = .skip) {body : Bytes} {header : OxmHeader}
    (hpeek : OxmHeader.peek? body = some header)
    (h : ctx.registries.fields.lookup? header.oxmClass header.field = none) (c : Cursor) :
    Agree (Writer.bytes body) (SetField.read ctx) c body.length [] (.raw body) := by
  refine Agree.cursor ?_
  refine Agree.peek (Writer.Spans.bytes rfl) (OxmHeader.size_le_of_peek? hpeek) fun _ => ?_
  -- The reader of fields gives up behind the header, and the cursor goes back in front of it.
  refine Agree.attempt_error (e := .unknownFieldType header.oxmClass header.field) ?_
    (if_pos hskip) ?_
  · intro bs hbs hc
    obtain rfl := Except.ok.inj ((Writer.encode_bytes body).symm.trans hbs)
    refine ⟨_, OxmField.run_read_of_lookup?_none (c := c) ?_ h⟩
    rw [hc.rest_eq, List.append_nil, hpeek]
  · exact Agree.map (Agree.rest body c)

/-- A well-formed action is read like the blank of its type, where its type is known. -/
theorem sameForm {a : Action} (hknown : Element.KnowsType ctx a) (h : a.WellFormed) :
    Element.SameForm ctx a := by
  intro declared
  have htypes : Element.registry? Registries.standard = some types := rfl
  rw [hknown]
  cases a with
  | unknown code length body =>
    rw [show Element.code (unknown code length body) = code from rfl,
      Element.blank_of_lookup_none htypes h.1]
    rfl
  | copyTtlOut | copyTtlIn | decMplsTtl | popVlan | decNwTtl | popPbb =>
    rw [Element.blank_of_lookup htypes rfl]
  | _ =>
    rw [Element.blank_of_lookup htypes rfl]
    rfl

/-- What reading an action back asks of what it holds: the field of a set-field action has a type
that the catalog knows, or else its body is kept around one that the catalog does not know,
and an action of an unknown code has the length that it declares. -/
def Legible (ctx : Context) : Action → Prop
  | setField (.known field) => ctx.registries.fields.Finds field.descriptor
  | setField (.raw body) =>
    ctx.unknownFields = .skip ∧ ∃ header, OxmHeader.peek? body = some header ∧
      ctx.registries.fields.lookup? header.oxmClass header.field = none
  | unknown _ length body => length.toNat = Element.commonHeaderSize + body.length
  | _ => True

theorem WellFormed.legible (hreg : ctx.registries = .standard) {a : Action} (h : a.WellFormed) :
    a.Legible ctx := by
  cases a with
  | setField content =>
    obtain ⟨field, hbasic, hmade⟩ := h
    obtain rfl := eq_known_of_settingField hmade
    change ctx.registries.fields.Finds field.descriptor
    rw [hreg]
    exact hbasic.finds FieldCatalog.holds_basic
  | unknown code length body => exact h.2
  | _ => trivial

/-- What follows the header of an action without a field. -/
theorem agree_body {a : Action} (h : a.Legible ctx) (hset : ∀ field, a ≠ setField (.known field))
    (c : Cursor) :
    Agree a.writeBody (readBody ctx (UInt16.ofNat a.length) a) c
      (a.length - Element.commonHeaderSize) [] a := by
  cases a with
  | output port maxLen =>
    rw [writeBody, Writer.append_assoc]
    exact Agree.of_size_eq (Agree.u32 (Agree.u16 (Agree.last_zeros _ _)))
  | setMplsTtl ttl | setNwTtl ttl =>
    exact Agree.of_size_eq (Agree.u8 (Agree.last_zeros _ _))
  | pushVlan etherType | pushMpls etherType | popMpls etherType | pushPbb etherType =>
    exact Agree.of_size_eq (Agree.u16 (Agree.last_zeros _ _))
  | setQueue id | group id => exact Agree.last_u32 _ _
  | setField content =>
    cases content with
    | known field => exact absurd rfl (hset field)
    | raw body =>
      obtain ⟨hskip, header, hpeek, hlookup⟩ := h
      rw [writeBody, SetField.write_raw]
      exact Agree.of_size_eq (Agree.map (agree_setField_raw hskip hpeek hlookup c))
        (Nat.add_sub_cancel_left _ _).symm
  | unknown code length body =>
    rw [show UInt16.ofNat (unknown code length body).length = length from
      Element.declared_unknown h]
    exact Element.agree_unknown h c
  | copyTtlOut | copyTtlIn | decMplsTtl | popVlan | decNwTtl | popPbb =>
    exact Agree.last_zeros _ _

/-- An action is read back if it is read like its blank and what it holds is read back. -/
theorem readsBack_of_sameForm {a : Action} (hform : Element.SameForm ctx a)
    (h : a.Legible ctx) : Element.ReadsBack ctx a := by
  have hread : Element.read ctx a = Element.readHeader >>= fun x => readBody ctx x.2 a := rfl
  by_cases hset : ∃ field, a = setField (.known field)
  · obtain ⟨field, rfl⟩ := hset
    have hwrite : Element.write (setField (.known field)) =
        Element.writeHeader _ _ ++ (field.write ++ Writer.zeros _) :=
      congrArg (Element.writeHeader _ _ ++ ·) (SetField.write_known field)
    refine Element.ReadsBack.of_agree (n := field.size) hwrite hform hread fun _ c tail _ => ?_
    exact Agree.map (agree_setField h c tail)
  · have hplain : ∀ field, a ≠ setField (.known field) := fun field ha => hset ⟨field, ha⟩
    exact Element.ReadsBack.of_agree_nil rfl hform hread fun _ c => agree_body h hplain c

/-- **A well-formed action is read back.** -/
theorem readsBack (hreg : ctx.registries = .standard) {a : Action} (h : a.WellFormed) :
    Element.ReadsBack ctx a :=
  readsBack_of_sameForm (sameForm (Element.knowsType_of_standard hreg a) h) (h.legible hreg)

end Action
end OpenFlow
