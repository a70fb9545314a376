import OpenFlow.Proofs.Hello.RoundTrip
import OpenFlow.Proofs.Instruction.RoundTrip
import OpenFlow.Proofs.Meter.RoundTrip
import OpenFlow.Proofs.Queue.RoundTrip
import OpenFlow.Proofs.Table.RoundTrip
import OpenFlow.Proofs.Wire.Message

/-!
# Lists of elements, written and read back

Every family is lawful, and in every family what is well formed is read back.  So a list
of well-formed elements is read back from its wire form, wherever the wire form stands
and whatever follows it, and so are the messages that are little more than a list.

Main definition:

* `Family.WellFormed`: what it takes for an element to be read back.

Main statement:

* `Element.readList_writeList`: lists of well-formed elements are read back, in every
  family, and hellos and packet queues with them.
-/

namespace OpenFlow

namespace Family

instance (F : Family) : Element.Lawful F.Member :=
  match F with
  | action => inferInstanceAs (Element.Lawful Action)
  | instruction => inferInstanceAs (Element.Lawful Instruction)
  | queueProperty => inferInstanceAs (Element.Lawful QueueProperty)
  | helloElement => inferInstanceAs (Element.Lawful HelloElement)
  | meterBand => inferInstanceAs (Element.Lawful MeterBand)
  | tableProperty => inferInstanceAs (Element.Lawful TableProperty)
  | elementId => inferInstanceAs (Element.Lawful ElementId)

/-- What it takes for an element of a family to be read back: a code that is marked unknown is
not registered, its length is that of its header and its body, and what it holds is well
formed in turn. -/
def WellFormed : (F : Family) → F.Member → Prop
  | action => Action.WellFormed
  | instruction => Instruction.WellFormed
  | queueProperty => QueueProperty.WellFormed
  | helloElement => HelloElement.WellFormed
  | meterBand => MeterBand.WellFormed
  | tableProperty => TableProperty.WellFormed
  | elementId => ElementId.WellFormed

/-- In every family, a well-formed element is read back. -/
theorem readsBack {ctx : Context} (hreg : ctx.registries = .standard)
    (hlimit : ctx.elementLimit = none) (F : Family) {e : F.Member} (h : F.WellFormed e) :
    Element.ReadsBack ctx e := by
  cases F with
  | action => exact Action.readsBack hreg h
  | instruction => exact Instruction.readsBack hreg hlimit h
  | queueProperty => exact QueueProperty.readsBack hreg h
  | helloElement => exact HelloElement.readsBack hreg h
  | meterBand => exact MeterBand.readsBack hreg h
  | tableProperty => exact TableProperty.readsBack hreg hlimit h
  | elementId => exact ElementId.readsBack h

end Family

namespace Hello

/-- A hello that is written has a length that fits its field. -/
theorem size_lt_of_encode {h : Hello} {b : Bytes} (hb : Message.encode h = .ok b) :
    h.size < 65536 :=
  MessageHeader.lt_of_encode_announce hb

end Hello

namespace PacketQueue

/-- A queue that is written has a length that fits its field. -/
theorem size_lt_of_encode {q : PacketQueue} {b : Bytes} (hb : Message.encode q = .ok b) :
    q.size < 65536 := by
  have hw : q.write.encode = .ok b := hb
  unfold write at hw
  simp only [Writer.append_assoc] at hw
  obtain ⟨_, -, _, hport, -⟩ := Writer.encode_append_eq_ok_iff.mp hw
  obtain ⟨_, -, _, hlength, -⟩ := Writer.encode_append_eq_ok_iff.mp hport
  obtain ⟨_, hsize, -⟩ := Writer.encode_append_eq_ok_iff.mp hlength
  exact (Writer.encode_length16_eq_ok_iff.mp hsize).1

end PacketQueue

namespace Element

/-- A list of elements that are read back, as a part of a buffer. -/
theorem run_readList_at {ε : Type} [Element ε] [Lawful ε] {ctx : Context}
    {es : List ε} (hlimit : ctx.Allows es.length) (h : ∀ e ∈ es, ReadsBack ctx e) {b : Bytes}
    (hb : (writeList es).encode = .ok b) (p s : Bytes) :
    (readList ctx b.length : Reader (List ε)).run (Cursor.at (p ++ b ++ s) p.length) =
      ⟨.ok es, Cursor.at (p ++ b ++ s) (p.length + b.length), 0⟩ := by
  have hlen := length_lt_of_encode_writeList hb
  have hsize : b.length = listLength es := (spans_writeList hlen).length_eq hb
  have hagree := agree_list hlimit h hlen (Cursor.at (p ++ b ++ s) p.length) s
  have hfaces : (Cursor.at (p ++ b ++ s) p.length).Faces (b ++ s) := by
    rw [List.append_assoc]
    exact Cursor.Faces.at_append p (b ++ s)
  rw [hsize, hagree.run_eq hb hfaces, Cursor.advance_at]

/-- **Lists of well-formed elements are read back**, in every family: from the bytes that were
written, inside of any buffer, reading gives the list and goes to the end of these bytes.
Hellos and packet queues of well-formed elements are decoded from their wire form with it,
whatever follows. -/
theorem readList_writeList (ctx : Context) (hreg : ctx.registries = .standard)
    (hlimit : ctx.elementLimit = none) :
    (∀ (F : Family) (es : List F.Member) (b : Bytes), (∀ e ∈ es, F.WellFormed e) →
      (writeList es).encode = .ok b → ∀ p s : Bytes,
        (readList ctx b.length : Reader (List F.Member)).run (Cursor.at (p ++ b ++ s) p.length) =
          ⟨.ok es, Cursor.at (p ++ b ++ s) (p.length + b.length), 0⟩) ∧
    (∀ (h : Hello) (b : Bytes), (∀ e ∈ h.elements, e.WellFormed) → Message.encode h = .ok b →
      ∀ s : Bytes, Message.decode ctx (b ++ s) = .ok (h, b.length)) ∧
    (∀ (q : PacketQueue) (b : Bytes), (∀ p ∈ q.properties, p.WellFormed) →
      Message.encode q = .ok b → ∀ s : Bytes, Message.decode ctx (b ++ s) = .ok (q, b.length)) := by
  refine ⟨fun F es b hes hb p s => ?_, fun h b hes hb s => ?_, fun q b hps hb s => ?_⟩
  · have hback : ∀ e ∈ es, ReadsBack ctx e := fun e he => F.readsBack hreg hlimit (hes e he)
    exact run_readList_at (.of_unlimited hlimit _) hback hb p s
  · have hlt := Hello.size_lt_of_encode hb
    exact Message.decode_append_of_agree (Hello.agree hreg hlimit hes hlt) hb s
  · have hlt := PacketQueue.size_lt_of_encode hb
    exact Message.decode_append_of_agree (PacketQueue.agree hreg hlimit hps hlt) hb s

/-- The Ethernet type of IPv4, as a field. -/
def ipv4Type : OxmField := ⟨FieldType.ethType.descriptor, .u16 0x0800, none, rfl, rfl⟩

/-- An instruction around a set-field action and one of an unknown code, and a second
instruction. -/
def someInstructions : List Instruction :=
  [.writeActions [.setField (.known ipv4Type), .unknown 0x1234 8 [1, 2, 3, 4]], .gotoTable 7]

theorem wellFormed_someInstructions : ∀ i ∈ someInstructions, i.WellFormed := by
  intro i hi
  rcases List.mem_cons.mp hi with rfl | hi
  · intro a ha
    rcases List.mem_cons.mp ha with rfl | ha
    · exact ⟨ipv4Type, ⟨.ethType, rfl⟩, rfl⟩
    · obtain rfl := List.mem_singleton.mp ha
      exact ⟨rfl, rfl⟩
  · obtain rfl := List.mem_singleton.mp hi
    trivial

/-- Instructions between other bytes, and a hello and a packet queue with elements of unknown
codes in front of other bytes. -/
theorem readList_writeList_some :
    (readList {} 40 : Reader (List Instruction)).run
        (Cursor.at ([9] ++ [0, 3, 0, 32, 0, 0, 0, 0, 0, 25, 0, 16, 0x80, 0, 0x0a, 2, 8, 0, 0, 0, 0,
          0, 0, 0, 0x12, 0x34, 0, 8, 1, 2, 3, 4, 0, 1, 0, 8, 7, 0, 0, 0] ++ [9]) 1) =
      ⟨.ok someInstructions,
        Cursor.at ([9] ++ [0, 3, 0, 32, 0, 0, 0, 0, 0, 25, 0, 16, 0x80, 0, 0x0a, 2, 8, 0, 0, 0, 0,
          0, 0, 0, 0x12, 0x34, 0, 8, 1, 2, 3, 4, 0, 1, 0, 8, 7, 0, 0, 0] ++ [9]) 41, 0⟩ ∧
    Message.decode {} ([4, 0, 0, 24, 0, 0, 0, 5, 0, 1, 0, 8, 0, 0, 0, 0x12, 0, 9, 0, 5, 1, 0, 0,
        0] ++ [9]) = .ok (Hello.mk 5 [.versionBitmap [0x12], .unknown 9 5 [1]], 24) ∧
    Message.decode {} ([0, 0, 0, 5, 0, 0, 0, 6, 0, 26, 0, 0, 0, 0, 0, 0, 0, 9, 0, 10, 0, 0, 0, 0,
        1, 2] ++ [9]) = .ok (PacketQueue.mk 5 6 [.unknown 9 10 [1, 2]], 26) := by
  obtain ⟨hlist, hhello, hqueue⟩ := readList_writeList {} rfl rfl
  refine ⟨?_, ?_, ?_⟩
  · exact hlist .instruction someInstructions _ wellFormed_someInstructions rfl [9] [9]
  · refine hhello ⟨5, [.versionBitmap [0x12], .unknown 9 5 [1]]⟩ _ (fun e he => ?_) rfl [9]
    rcases List.mem_cons.mp he with rfl | he
    · trivial
    · obtain rfl := List.mem_singleton.mp he
      exact ⟨rfl, rfl⟩
  · refine hqueue ⟨5, 6, [.unknown 9 10 [1, 2]]⟩ _ (fun p hp => ?_) rfl [9]
    obtain rfl := List.mem_singleton.mp hp
    exact ⟨rfl, rfl⟩

end Element
end OpenFlow
