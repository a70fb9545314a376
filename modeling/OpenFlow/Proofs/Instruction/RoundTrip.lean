import OpenFlow.Proofs.Action.RoundTrip

/-!
# Instructions, written and read back

An instruction is read back if it is well formed, which for an instruction with actions
means that all of its actions are.

Main statements:

* `Instruction.readsBack_of_sameForm`: an instruction is read back where its actions are.
* `Instruction.readsBack`: a well-formed instruction is read back.
-/

namespace OpenFlow
namespace Instruction

/-! ## What is written -/

instance (i : Instruction) : Writer.Uniform i.writeBody := by
  cases i <;> unfold writeBody <;> infer_instance

theorem commonHeaderSize_le_length (i : Instruction) :
    Element.commonHeaderSize ≤ i.length := by
  cases i with
  | writeActions actions | applyActions actions =>
    change 4 ≤ 8 + _
    omega
  | unknown code length body => exact Nat.le_max_right _ _
  | _ => exact Nat.le_of_ble_eq_true rfl

/-- The padding in front of the actions, and the actions. -/
theorem spans_actions {actions : List Action}
    (h : actionsOffset + Element.listLength actions < 65536) :
    Writer.Spans (Writer.zeros 4 ++ Element.writeList actions)
      (actionsOffset + Element.listLength actions - Element.commonHeaderSize) := by
  have hlist := Element.spans_writeList (Element.length_lt_of_mem h)
  refine Writer.Spans.of_size_eq (Writer.Spans.append (Writer.Spans.zeros 4) hlist) ?_
  change 4 + Element.listLength actions = 8 + Element.listLength actions - 4
  omega

/-- What follows the header of an instruction fills the length that it declares. -/
theorem spans_writeBody {i : Instruction} (h : i.length < 65536) :
    Writer.Spans i.writeBody (i.length - Element.commonHeaderSize) := by
  cases i with
  | gotoTable tableId =>
    exact (Writer.Spans.append (Writer.Spans.u8 tableId) (Writer.Spans.zeros 3)).of_size_eq rfl
  | writeMetadata metadata mask =>
    exact (Writer.Spans.append (Writer.Spans.append (Writer.Spans.zeros 4)
      (Writer.Spans.u64 metadata)) (Writer.Spans.u64 mask)).of_size_eq rfl
  | writeActions actions | applyActions actions => exact spans_actions h
  | clearActions => exact Writer.Spans.zeros 4
  | meter id => exact Writer.Spans.u32 id
  | unknown code length body => exact Element.spans_unknown length _ body

instance : Element.Lawful Instruction where
  write_eq i := ⟨i.writeBody, inferInstance, rfl⟩
  headerSize_le_length := commonHeaderSize_le_length
  spans_write {i} h :=
    Element.spans_write_of_body h (commonHeaderSize_le_length i) (spans_writeBody h)

/-! ## What is read back -/

/-- An instruction that its wire form determines: its actions are well formed, and an
instruction of an unknown code has the length that it declares. -/
def WellFormed : Instruction → Prop
  | writeActions actions | applyActions actions => ∀ a ∈ actions, a.WellFormed
  | unknown code length body =>
    types.lookup? code = none ∧ length.toNat = Element.commonHeaderSize + body.length
  | _ => True

variable {ctx : Context}

/-- A well-formed instruction is read like the blank of its type, where its type is known. -/
theorem sameForm {i : Instruction} (hknown : Element.KnowsType ctx i) (h : i.WellFormed) :
    Element.SameForm ctx i := by
  intro declared
  have htypes : Element.registry? Registries.standard = some types := rfl
  rw [hknown]
  cases i with
  | unknown code length body =>
    rw [show Element.code (unknown code length body) = code from rfl,
      Element.blank_of_lookup_none htypes h.1]
    rfl
  | clearActions => rw [Element.blank_of_lookup htypes rfl]
  | _ =>
    rw [Element.blank_of_lookup htypes rfl]
    rfl

/-- What reading an instruction back asks of what it holds: its actions are read back, and are no
more than are allowed, and an instruction of an unknown code has the length that it declares. -/
def Legible (ctx : Context) : Instruction → Prop
  | writeActions actions | applyActions actions =>
    ctx.Allows actions.length ∧ ∀ a ∈ actions, Element.ReadsBack ctx a
  | unknown _ length body => length.toNat = Element.commonHeaderSize + body.length
  | _ => True

theorem WellFormed.legible (hreg : ctx.registries = .standard) (hlimit : ctx.elementLimit = none)
    {i : Instruction} (h : i.WellFormed) : i.Legible ctx := by
  cases i with
  | writeActions actions | applyActions actions =>
    exact ⟨.of_unlimited hlimit _, fun a ha => Action.readsBack hreg (h a ha)⟩
  | unknown code length body => exact h.2
  | _ => trivial

/-- The actions of an instruction, behind its header. -/
theorem agree_actions {actions : List Action} (hlimit : ctx.Allows actions.length)
    (h : ∀ a ∈ actions, Element.ReadsBack ctx a)
    (hlt : actionsOffset + Element.listLength actions < 65536) (c : Cursor) (tail : Bytes) :
    Agree (Writer.zeros 4 ++ Element.writeList actions)
      (readActions ctx (UInt16.ofNat (actionsOffset + Element.listLength actions))) c
      (4 + Element.listLength actions) tail actions :=
  Agree.zeros (Element.agree_list_left hlimit h hlt _ tail)

/-- What follows the header of an instruction. -/
theorem agree_body {i : Instruction} (h : i.Legible ctx)
    (hlt : i.length < 65536) (c : Cursor) :
    Agree i.writeBody (readBody ctx (UInt16.ofNat i.length) i) c
      (i.length - Element.commonHeaderSize) [] i := by
  cases i with
  | gotoTable tableId => exact Agree.of_size_eq (Agree.u8 (Agree.last_zeros _ _))
  | writeMetadata metadata mask =>
    rw [writeBody, Writer.append_assoc]
    exact Agree.of_size_eq (Agree.zeros (Agree.u64 (Agree.last_u64 _ _)))
  | writeActions actions | applyActions actions =>
    refine Agree.of_size_eq (Agree.map (agree_actions h.1 h.2 hlt c [])) ?_
    change 4 + Element.listLength actions = 8 + Element.listLength actions - 4
    omega
  | clearActions => exact Agree.last_zeros _ _
  | meter id => exact Agree.last_u32 _ _
  | unknown code length body =>
    rw [show UInt16.ofNat (unknown code length body).length = length from
      Element.declared_unknown h]
    exact Element.agree_unknown h c

/-- An instruction is read back if it is read like its blank and what it holds is read back. -/
theorem readsBack_of_sameForm {i : Instruction} (hform : Element.SameForm ctx i)
    (h : i.Legible ctx) : Element.ReadsBack ctx i := by
  have hread : Element.read ctx i = Element.readHeader >>= fun x => readBody ctx x.2 i := rfl
  exact Element.ReadsBack.of_agree_nil rfl hform hread fun hlt c => agree_body h hlt c

/-- **A well-formed instruction is read back.** -/
theorem readsBack (hreg : ctx.registries = .standard) (hlimit : ctx.elementLimit = none)
    {i : Instruction} (h : i.WellFormed) : Element.ReadsBack ctx i :=
  readsBack_of_sameForm (sameForm (Element.knowsType_of_standard hreg i) h)
    (h.legible hreg hlimit)

end Instruction
end OpenFlow
