import OpenFlow.Proofs.Element.Lawful
import OpenFlow.Queue.Wire

/-!
# Packet queues, written and read back

The padding that follows the header of a property is part of its header, so what a
property of an unknown code keeps begins behind it.

Main statements:

* `QueueProperty.readsBack`: a well-formed property is read back.
* `PacketQueue.agree`: so is a queue of well-formed properties.
-/

namespace OpenFlow

namespace QueueProperty

/-! ## What is written -/

instance (p : QueueProperty) : Writer.Uniform p.writeBody := by
  cases p <;> unfold writeBody <;> infer_instance

theorem headerSize_le_length (p : QueueProperty) : headerSize ≤ p.length := by
  cases p with
  | unknown code length body => exact Nat.le_max_right _ _
  | _ => exact Nat.le_of_ble_eq_true rfl

/-- What follows the header of a property and its padding fills the length that it
declares. -/
theorem spans_writeBody (p : QueueProperty) :
    Writer.Spans p.writeBody (p.length - headerSize) := by
  cases p with
  | minRate rate | maxRate rate =>
    exact (Writer.Spans.append (Writer.Spans.u16 rate) (Writer.Spans.zeros 6)).of_size_eq rfl
  | unknown code length body => exact Element.spans_unknown length _ body

instance : Element.Lawful QueueProperty where
  write_eq p := ⟨Writer.zeros 4 ++ p.writeBody, inferInstance, Writer.append_assoc _ _ _⟩
  headerSize_le_length := headerSize_le_length
  spans_write {p} h := by
    refine Writer.Spans.of_size_eq (Writer.Spans.append (Writer.Spans.append
      (Element.spans_writeHeader h) (Writer.Spans.zeros 4)) (spans_writeBody p)) ?_
    exact Nat.add_sub_cancel' (headerSize_le_length p)

/-! ## What is read back -/

/-- A property that its wire form determines: one of an unknown code has the length that it
declares. -/
def WellFormed : QueueProperty → Prop
  | unknown code length body =>
    types.lookup? code = none ∧ length.toNat = headerSize + body.length
  | _ => True

variable {ctx : Context}

/-- A well-formed property is read like the blank of its type, where its type is known. -/
theorem sameForm {p : QueueProperty} (hknown : Element.KnowsType ctx p) (h : p.WellFormed) :
    Element.SameForm ctx p := by
  intro declared
  have htypes : Element.registry? Registries.standard = some types := rfl
  rw [hknown]
  cases p with
  | unknown code length body =>
    rw [show Element.code (unknown code length body) = code from rfl,
      Element.blank_of_lookup_none htypes h.1]
    rfl
  | _ =>
    rw [Element.blank_of_lookup htypes rfl]
    rfl

/-- A property of an unknown code has the length that it declares. -/
def KeepsLength : QueueProperty → Prop
  | unknown _ length body => length.toNat = headerSize + body.length
  | _ => True

theorem WellFormed.keepsLength {p : QueueProperty} (h : p.WellFormed) : p.KeepsLength := by
  cases p with
  | unknown code length body => exact h.2
  | _ => trivial

/-- What is read behind the header that all families share. -/
def readPadded (declared : UInt16) (p : QueueProperty) : Reader QueueProperty := do
  Reader.skip 4
  readBody declared p

theorem agree_rate (rate : UInt16) (c : Cursor) (tail : Bytes) :
    Agree (Writer.u16 rate ++ Writer.zeros 6) readRate c 8 tail rate :=
  Agree.of_size_eq (Agree.u16 (Agree.last_zeros _ _))

/-- What follows the header of a property and its padding. -/
theorem agree_body {p : QueueProperty} (h : p.KeepsLength) (c : Cursor) :
    Agree p.writeBody (readBody (UInt16.ofNat p.length) p) c (p.length - headerSize) [] p := by
  cases p with
  | minRate rate | maxRate rate => exact Agree.map (agree_rate rate c [])
  | unknown code length body =>
    rw [show UInt16.ofNat (unknown code length body).length = length from
      Element.declared_unknown h]
    exact Element.agree_unknown h c

/-- A property is read back if it is read like its blank and has the length that it declares. -/
theorem readsBack_of_sameForm {p : QueueProperty} (hform : Element.SameForm ctx p)
    (h : p.KeepsLength) : Element.ReadsBack ctx p := by
  have hread : Element.read ctx p = Element.readHeader >>= fun x => readPadded x.2 p := rfl
  exact Element.ReadsBack.of_agree_nil (Writer.append_assoc _ _ _) hform hread fun _ c =>
    Agree.zeros (agree_body h _)

/-- **A well-formed property is read back.** -/
theorem readsBack (hreg : ctx.registries = .standard) {p : QueueProperty} (h : p.WellFormed) :
    Element.ReadsBack ctx p :=
  readsBack_of_sameForm (sameForm (Element.knowsType_of_standard hreg p) h) h.keepsLength

end QueueProperty

namespace PacketQueue

instance (q : PacketQueue) : Writer.Uniform q.write :=
  inferInstanceAs (Writer.Uniform (Writer.u32 _ ++ Writer.u32 _ ++ Writer.length16 _ _
    ++ Writer.zeros 6 ++ Element.writeList q.properties))

variable {ctx : Context}

/-- A queue is read back if its properties are, and if as many are allowed. -/
theorem agree_of_readsBack {q : PacketQueue} (hlimit : ctx.Allows q.properties.length)
    (hproperties : ∀ p ∈ q.properties, Element.ReadsBack ctx p) (hlt : q.size < 65536) (c : Cursor)
    (tail : Bytes) : Agree q.write (read ctx) c q.size tail q := by
  have hfixed : ¬ (UInt16.ofNat q.size).toNat < fixedSize := by
    rw [UInt16.toNat_ofNat_of_lt' hlt]
    exact Nat.not_lt.mpr (Nat.le_add_right _ _)
  unfold write read
  simp only [Writer.append_assoc]
  refine Agree.of_size_eq (Agree.u32 (Agree.u32 (Agree.length16 hlt (Agree.zeros
    (m := Element.listLength q.properties) ?_)))) ?_
  · rw [if_neg hfixed]
    exact Agree.map (Element.agree_list_left hlimit hproperties hlt _ tail)
  · unfold size fixedSize
    omega

/-- **A queue of well-formed properties is read back**, whatever follows it. -/
theorem agree (hreg : ctx.registries = .standard) (hlimit : ctx.elementLimit = none)
    {q : PacketQueue} (h : ∀ p ∈ q.properties, p.WellFormed) (hlt : q.size < 65536) (c : Cursor)
    (tail : Bytes) : Agree q.write (read ctx) c q.size tail q :=
  agree_of_readsBack (.of_unlimited hlimit _) (fun p hp => QueueProperty.readsBack hreg (h p hp))
    hlt c tail

end PacketQueue
end OpenFlow
