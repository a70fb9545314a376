import OpenFlow.Proofs.Multipart.Accounts

/-!
# Writing behind what is there already

The zeros behind an element are counted on the buffer: the writer of a list looks how long the
buffer was before an element and how long it is behind it, the writer of a set-field action does
the same with its field, and both happen inside of one another, in the lists of an instruction, of
a record and of a message.  Only differences of such lengths are used, never a length itself, so
what stood in the buffer before makes no difference: it stays, and what follows it is what an empty
buffer would have got, or the writer gives up where it would have given up there.

`Writer.Uniform` is this property of one writer.  It holds of the primitive writers, and it is kept
by writers in a row (`++`, `each`) and by counted zeros (`padded`).  Every writer of the library is
put together in these ways, and so it has the property by its form.

Main definition:

* `Writer.Appends`: a writer does behind a buffer what it does on an empty one.

Main statement:

* `MessageType.write_appends`: the values of all types and the lists of elements of all families
  are written behind any buffer as on an empty one.
-/

namespace OpenFlow
namespace Writer

/-- A writer does behind a buffer what it does on an empty one.  The wire form `encode` is what it
makes of an empty one. -/
structure Appends (w : Writer) (p : Array UInt8) : Prop where
  /-- It succeeds behind the buffer where it has a wire form, which follows the buffer. -/
  run_eq_ok_iff (q : Array UInt8) : w.run p = ⟨q, none⟩ ↔ ∃ bs, w.encode = .ok bs ∧ q = p ++ bs
  /-- It gives up where it has none, for the same reason. -/
  failure_eq_iff (e : Error) : (w.run p).failure = some e ↔ w.encode = .error e
  /-- Either way the buffer stays in front. -/
  starts : p.toList <+: (w.run p).buffer.toList

/-- A uniform writer appends to every buffer. -/
theorem Uniform.appends (w : Writer) [hw : Uniform w] (p : Array UInt8) : w.Appends p where
  run_eq_ok_iff q := by
    constructor
    · intro h
      rw [hw.run_eq p] at h
      obtain ⟨rfl, hnone⟩ := Written.mk.inj h
      refine ⟨(w.run #[]).buffer.toList, encode_eq_ok_iff.mpr ?_, ?_⟩
      · exact Written.ext rfl hnone
      · rw [← append_toArray]
    · rintro ⟨bs, hbs, rfl⟩
      exact run_of_encode_eq_ok hbs p
  failure_eq_iff e := by
    rw [hw.run_eq p, encode_eq_error_iff]
  starts := by
    rw [hw.run_eq p, Array.toList_append]
    exact List.prefix_append _ _

end Writer

namespace MessageType

instance (T : MessageType) (a : T.Value) : Writer.Uniform (Message.write a) := by
  cases T with
  | oxmField => exact (inferInstance : ∀ a : OxmField, Writer.Uniform a.write) a
  | pattern => exact (inferInstance : ∀ a : Match, Writer.Uniform a.write) a
  | hello => exact (inferInstance : ∀ a : Hello, Writer.Uniform a.write) a
  | packetQueue => exact (inferInstance : ∀ a : PacketQueue, Writer.Uniform a.write) a
  | multipart => exact (inferInstance : ∀ a : MultipartMessage, Writer.Uniform a.write) a
  | switchDescription => exact (inferInstance : ∀ a : SwitchDescription, Writer.Uniform a.write) a
  | flowStatsRequest => exact (inferInstance : ∀ a : FlowStatsRequest, Writer.Uniform a.write) a
  | flowStats => exact (inferInstance : ∀ a : FlowStats, Writer.Uniform a.write) a
  | aggregateStats => exact (inferInstance : ∀ a : AggregateStats, Writer.Uniform a.write) a
  | tableStats => exact (inferInstance : ∀ a : TableStats, Writer.Uniform a.write) a
  | portQueueRequest => exact (inferInstance : ∀ a : PortQueueRequest, Writer.Uniform a.write) a
  | portStats => exact (inferInstance : ∀ a : PortStats, Writer.Uniform a.write) a
  | queueStats => exact (inferInstance : ∀ a : QueueStats, Writer.Uniform a.write) a
  | idRequest => exact (inferInstance : ∀ a : IdRequest, Writer.Uniform a.write) a
  | groupStats => exact (inferInstance : ∀ a : GroupStats, Writer.Uniform a.write) a
  | experimenterBody => exact (inferInstance : ∀ a : ExperimenterBody, Writer.Uniform a.write) a
  | meterConfig => exact (inferInstance : ∀ a : MeterConfig, Writer.Uniform a.write) a
  | tableFeatures => exact (inferInstance : ∀ a : TableFeatures, Writer.Uniform a.write) a

/-- **Writing is appending**, wherever it begins: the values of all types and the lists of elements
of all families are written behind any buffer as on an empty one, and they give up there for the
same reason.  The buffer stays in front either way. -/
theorem write_appends (p : Array UInt8) :
    (∀ (T : MessageType) (a : T.Value), (Message.write a).Appends p) ∧
    ∀ (F : Family) (es : List F.Member), (Element.writeList es).Appends p :=
  ⟨fun _ a => Writer.Uniform.appends (Message.write a) p,
    fun _ es => Writer.Uniform.appends (Element.writeList es) p⟩

/-- The field of an action in an instruction, filled up behind three bytes. -/
example : (Element.writeList [Instruction.applyActions [.setField (.known Element.ipv4Type)]]).run
    #[1, 2, 3] = ⟨#[1, 2, 3, 0, 4, 0, 24, 0, 0, 0, 0, 0, 25, 0, 16, 0x80, 0, 0x0a, 2, 8, 0, 0, 0, 0,
      0, 0, 0], none⟩ := by
  rfl

end MessageType
end OpenFlow
