import OpenFlow.Proofs.Element.RoundTrip
import OpenFlow.Proofs.Wire.Accounts

/-!
# Lengths in lists of elements

Every element is written with as many bytes as it declares, in every family and at both
levels where elements hold elements of their own.  None of this asks an element to be well
formed: the body of an element of an unknown code is cut or filled where it has another
length than the element declares, or else the element declares what its body has.

Main definitions:

* `Element.sizedPart`: an element as a part with its own length.
* `Family.parts`: the elements in an element, itself included.

Main statement:

* `Family.accounts_writeList`: lists of elements of any family account for all elements in
  them.
-/

namespace OpenFlow

namespace Element

variable {ε : Type} [Element ε]

/-- An element as a part that declares its length, behind its code. -/
def sizedPart (e : ε) : SizedPart := ⟨write e, length e, length e, 2, "TLV element"⟩

/-- An element accounts for itself and what is in it, if what follows the header that all families
share fills the length that it declares. -/
theorem accounts_write {e : ε} {body : Writer} [Writer.Uniform body] {parts : List SizedPart}
    (hwrite : write e = writeHeader (code e) (length e) ++ body)
    (hle : commonHeaderSize ≤ length e)
    (hbody : Writer.Accounts body (length e - commonHeaderSize) parts) :
    Writer.Accounts (write e) (length e) (sizedPart e :: parts) := by
  rw [writeHeader, Writer.append_assoc] at hwrite
  rw [hwrite]
  refine Writer.Accounts.framed (p := sizedPart e) hwrite (Writer.Spans.u16 (code e)) hbody ?_
  · change 2 + (2 + (length e - 4)) = length e
    change 4 ≤ length e at hle
    omega

/-- A list of elements accounts for what each of them does. -/
theorem accounts_writeList [Lawful ε] {partsOf : ε → List SizedPart} {es : List ε}
    (h : ∀ e ∈ es, Writer.Accounts (write e) (length e) (partsOf e)) :
    Writer.Accounts (writeList es) (listLength es) (es.flatMap partsOf) :=
  Writer.Accounts.each fun e he => Writer.Accounts.padded (h e he) (Framed.le_occupied _)

end Element

/-! ## Elements that hold no others -/

namespace Action

theorem accounts (a : Action) :
    Writer.Accounts (Element.write a) (Element.length a) [Element.sizedPart a] :=
  Element.accounts_write rfl (commonHeaderSize_le_length a) (.of_spans (spans_writeBody a))

end Action

namespace QueueProperty

theorem accounts (p : QueueProperty) :
    Writer.Accounts (Element.write p) (Element.length p) [Element.sizedPart p] := by
  have hheader : 8 ≤ p.length := headerSize_le_length p
  have hbody : Writer.Spans (Writer.zeros 4 ++ p.writeBody)
      (p.length - Element.commonHeaderSize) := by
    refine (Writer.Spans.append (Writer.Spans.zeros 4) (spans_writeBody p)).of_size_eq ?_
    change 4 + (p.length - 8) = p.length - 4
    omega
  exact Element.accounts_write (Writer.append_assoc _ _ _)
    (Nat.le_trans (by decide) (headerSize_le_length p)) (.of_spans hbody)

end QueueProperty

namespace HelloElement

theorem accounts (e : HelloElement) :
    Writer.Accounts (Element.write e) (Element.length e) [Element.sizedPart e] :=
  Element.accounts_write rfl (commonHeaderSize_le_length e) (.of_spans (spans_writeBody e))

end HelloElement

namespace MeterBand

theorem accounts (b : MeterBand) :
    Writer.Accounts (Element.write b) (Element.length b) [Element.sizedPart b] := by
  have hheader : 12 ≤ b.length := headerSize_le_length b
  have hbody : Writer.Spans
      (Writer.u32 b.rate ++ (Writer.u32 b.burstSize ++ writeEffect b.effect))
      (b.length - Element.commonHeaderSize) := by
    refine (Writer.Spans.append (Writer.Spans.u32 _) (Writer.Spans.append (Writer.Spans.u32 _)
      (spans_writeEffect b))).of_size_eq ?_
    change 4 + (4 + (b.length - 12)) = b.length - 4
    omega
  exact Element.accounts_write (write_eq b) (Nat.le_trans (by decide) (headerSize_le_length b))
    (.of_spans hbody)

end MeterBand

namespace ElementId

theorem accounts (e : ElementId) :
    Writer.Accounts (Element.write e) (Element.length e) [Element.sizedPart e] :=
  Element.accounts_write rfl (Nat.le_add_right _ _)
    (.of_spans (Writer.Spans.bytes (Nat.add_sub_cancel_left _ _).symm))

end ElementId

/-! ## Elements that hold others -/

namespace Instruction

/-- The actions in an instruction. -/
def actions : Instruction → List Action
  | writeActions actions | applyActions actions => actions
  | _ => []

/-- The elements in an instruction: itself and its actions. -/
def parts (i : Instruction) : List SizedPart :=
  Element.sizedPart i :: i.actions.flatMap fun a => [Element.sizedPart a]

/-- The padding in front of the actions, and the actions. -/
theorem accounts_actions (actions : List Action) :
    Writer.Accounts (Writer.zeros 4 ++ Element.writeList actions)
      (actionsOffset + Element.listLength actions - Element.commonHeaderSize)
      (actions.flatMap fun a => [Element.sizedPart a]) := by
  have hlist := Element.accounts_writeList fun a (_ : a ∈ actions) => Action.accounts a
  refine (Writer.Accounts.behind (Writer.Spans.zeros 4) hlist).of_size_eq ?_
  change 4 + Element.listLength actions = 8 + Element.listLength actions - 4
  omega

theorem accounts (i : Instruction) :
    Writer.Accounts (Element.write i) (Element.length i) i.parts := by
  refine Element.accounts_write rfl (commonHeaderSize_le_length i) ?_
  cases i with
  | writeActions actions | applyActions actions => exact accounts_actions actions
  | unknown code length body => exact .of_spans (Element.spans_unknown length _ body)
  | _ => exact .of_spans (spans_writeBody (Nat.le_of_ble_eq_true rfl))

end Instruction

namespace TableProperty

/-- The element ids in a property. -/
def ids : TableProperty → List ElementId
  | instructions _ ids | actions _ _ ids => ids
  | _ => []

/-- The elements in a property: itself and its element ids. -/
def parts (p : TableProperty) : List SizedPart :=
  Element.sizedPart p :: p.ids.flatMap fun e => [Element.sizedPart e]

/-- What follows the header of a property. -/
theorem accounts_writeBody (p : TableProperty) :
    Writer.Accounts p.writeBody p.bodyLength (p.ids.flatMap fun e => [Element.sizedPart e]) := by
  cases p with
  | instructions miss ids | actions use miss ids =>
    exact Element.accounts_writeList fun e (_ : e ∈ ids) => ElementId.accounts e
  | nextTables miss tables => exact .of_spans (Writer.Spans.bytes rfl)
  | fields use miss headers =>
    exact .of_spans (Writer.Spans.each_const fun h _ => Writer.Spans.u32 h.word)
  | unknown code length body => exact .of_spans (Writer.Spans.bytes rfl)

theorem accounts (p : TableProperty) :
    Writer.Accounts (Element.write p) (Element.length p) p.parts :=
  Element.accounts_write rfl (Nat.le_add_right _ _)
    ((accounts_writeBody p).of_size_eq (Nat.add_sub_cancel_left _ _).symm)

/-- No element in a property is longer than the property. -/
theorem declared_le_length {p : TableProperty} {q : SizedPart} (h : q ∈ p.parts) :
    q.declared ≤ p.length := by
  have hids {ids : List ElementId} (hq : q ∈ ids.flatMap fun e => [Element.sizedPart e]) :
      q.declared ≤ Element.listLength ids := by
    obtain ⟨e, he, hqe⟩ := List.mem_flatMap.mp hq
    obtain rfl := List.mem_singleton.mp hqe
    exact Element.length_le_listLength he
  rcases List.mem_cons.mp h with rfl | h
  · exact Nat.le_refl _
  · refine Nat.le_trans ?_ (Nat.le_add_left _ _)
    cases p with
    | instructions miss ids | actions use miss ids => exact hids h
    | nextTables | fields | unknown => exact absurd h List.not_mem_nil

end TableProperty

/-! ## All families -/

namespace Family

/-- The elements in an element of a family, itself included. -/
def parts : (F : Family) → F.Member → List SizedPart
  | action => fun a => [Element.sizedPart (ε := Action) a]
  | instruction => Instruction.parts
  | queueProperty => fun p => [Element.sizedPart (ε := QueueProperty) p]
  | helloElement => fun e => [Element.sizedPart (ε := HelloElement) e]
  | meterBand => fun b => [Element.sizedPart (ε := MeterBand) b]
  | tableProperty => TableProperty.parts
  | elementId => fun e => [Element.sizedPart (ε := ElementId) e]

/-- In every family, an element accounts for all elements in it. -/
theorem accounts (F : Family) (e : F.Member) :
    Writer.Accounts (Element.write e) (Element.length e) (F.parts e) := by
  cases F with
  | action => exact Action.accounts e
  | instruction => exact Instruction.accounts e
  | queueProperty => exact QueueProperty.accounts e
  | helloElement => exact HelloElement.accounts e
  | meterBand => exact MeterBand.accounts e
  | tableProperty => exact TableProperty.accounts e
  | elementId => exact ElementId.accounts e

/-- **In every family, a list accounts for all elements in it**, whatever they are. -/
theorem accounts_writeList (F : Family) (es : List F.Member) :
    Writer.Accounts (Element.writeList es) (Element.listLength es) (es.flatMap F.parts) :=
  Element.accounts_writeList fun e _ => F.accounts e

end Family
end OpenFlow
