import OpenFlow.Multipart.Wire
import OpenFlow.Proofs.Meter.RoundTrip
import OpenFlow.Proofs.Multipart.Region
import OpenFlow.Proofs.Statistics.RoundTrip
import OpenFlow.Proofs.Table.RoundTrip

/-!
# Bodies of multipart messages, written and read back

Reading a body first judges how far it goes, by its shape and by the bytes in front, and
then reads it from these bytes alone.  What is judged is the number of bytes that were
written: the size of the shape, the length that the body opens with, the length that
its match declares, or all that is left.

Main statements:

* `Body.agree`: a well-formed body is read back from its own bytes.
* `Body.span?_eq_some`: the judgement finds the size of the body.
-/

namespace OpenFlow

namespace Body

instance (b : Body) : Writer.Uniform b.write := by
  cases b <;> unfold write <;> infer_instance

/-- A body that its wire form determines. -/
def WellFormed : Body → Prop
  | description d => d.WellFormed
  | flowStatsRequest r | aggregateStatsRequest r => r.pattern.WellFormed
  | flowStats s => s.WellFormed
  | meterConfig m => ∀ b ∈ m.bands, b.WellFormed
  | tableFeatures t => t.WellFormed
  | unknown bytes => bytes ≠ []
  | _ => True

/-- Whether a body goes on to the end of its message. -/
def IsOpen : Body → Prop
  | experimenter _ | unknown _ => True
  | _ => False

/-! ## One body -/

variable {ctx : Context}

/-- **A well-formed body is read back** from its own bytes, if a length that it opens with is not
too much for 16 bits. -/
theorem agree (hreg : ctx.registries = .standard) (hlimit : ctx.elementLimit = none) {b : Body}
    (h : b.WellFormed) (hlt : b.OpensWithLength → b.size < 65536) (c : Cursor) :
    Agree b.write (read ctx b) c b.size [] b := by
  have hfields : ctx.registries.fields = .basic := by
    rw [hreg]
    rfl
  cases b with
  | empty => exact Agree.pure _ c []
  | description d => exact Agree.map (SwitchDescription.agree h c [])
  | flowStatsRequest r | aggregateStatsRequest r =>
    exact Agree.map (FlowStatsRequest.agree hfields h c [])
  | flowStats s => exact Agree.map (FlowStats.agree hreg hlimit h (hlt trivial) c [])
  | aggregateStats s => exact Agree.map (AggregateStats.agree s c [])
  | tableStats s => exact Agree.map (TableStats.agree s c [])
  | portStatsRequest r | queueStatsRequest r => exact Agree.map (PortQueueRequest.agree r c [])
  | portStats s => exact Agree.map (PortStats.agree s c [])
  | queueStats s => exact Agree.map (QueueStats.agree s c [])
  | groupStatsRequest r | meterRequest r => exact Agree.map (IdRequest.agree r c [])
  | groupStats s => exact Agree.map (GroupStats.agree (hlt trivial) c [])
  | meterConfig m => exact Agree.map (MeterConfig.agree hreg hlimit h (hlt trivial) c [])
  | tableFeatures t => exact Agree.map (TableFeatures.agree hreg hlimit h (hlt trivial) c [])
  | experimenter e => exact Agree.map (ExperimenterBody.agree e c)
  | unknown bytes => exact Agree.map (Agree.rest bytes c)

/-- The length of the match in a request for flow statistics, behind the fixed part and the type
of the match. -/
theorem peek_flowStatsRequest {r : FlowStatsRequest} {bs : Bytes}
    (hbs : r.write.encode = .ok bs) (tail : Bytes) :
    Bytes.peekUInt16? ((bs ++ tail).drop (FlowStatsRequest.fixedSize + 2)) =
      some r.pattern.length := by
  have hfixed : Writer.Spans (Writer.u8 r.tableId ++ Writer.zeros 3 ++ Writer.u32 r.outPort
      ++ Writer.u32 r.outGroup ++ Writer.zeros 4 ++ Writer.u64 r.cookie
      ++ Writer.u64 r.cookieMask) FlowStatsRequest.fixedSize :=
    Writer.Spans.append (Writer.Spans.append (Writer.Spans.append (Writer.Spans.append
      (Writer.Spans.append (Writer.Spans.append (Writer.Spans.u8 _) (Writer.Spans.zeros 3))
        (Writer.Spans.u32 _)) (Writer.Spans.u32 _)) (Writer.Spans.zeros 4))
          (Writer.Spans.u64 _)) (Writer.Spans.u64 _)
  obtain ⟨as, has, cs, hcs, rfl⟩ := Writer.encode_append_eq_ok_iff.mp hbs
  obtain ⟨fields, -, hmatch⟩ := Match.encode_write r.pattern
  rw [hcs] at hmatch
  obtain rfl := Except.ok.inj hmatch
  have hlen := hfixed.length_eq has
  rw [← List.drop_drop, List.append_assoc, List.drop_left' hlen, List.append_assoc,
    List.append_assoc, List.append_assoc, List.drop_left' (Bytes.length_ofUInt16 _),
    Bytes.peekUInt16?_append]

/-- **The judgement of how far a body goes finds its size**, whatever follows it, if a body that
goes on to the end is the last one. -/
theorem span?_eq_some {b : Body} (h : b.WellFormed) {bs : Bytes} (hbs : b.write.encode = .ok bs)
    (tail : Bytes) {left : Nat} (hleft : b.IsOpen → left = b.size) :
    span? b (bs ++ tail) left = some b.size := by
  cases b with
  | flowStatsRequest r | aggregateStatsRequest r =>
    have hlength : r.pattern.length.toNat = r.pattern.span := by
      rw [Match.toNat_length, Nat.mod_eq_of_lt h.span_lt]
    have hmax : max r.pattern.span Match.headerSize = r.pattern.span :=
      Nat.max_eq_left (Nat.le_add_right _ _)
    unfold span?
    rw [peek_flowStatsRequest hbs, Option.map_some, hlength, hmax]
    change some (FlowStatsRequest.fixedSize + _) = some (FlowStatsRequest.fixedSize + align8 _)
    rw [hlength]
  | flowStats s => exact s.opensWith_write.peek hbs tail
  | groupStats s => exact s.opensWith_write.peek hbs tail
  | meterConfig m => exact m.opensWith_write.peek hbs tail
  | tableFeatures t => exact t.opensWith_write.peek hbs tail
  | experimenter e => exact congrArg some (hleft trivial)
  | unknown bytes => exact congrArg some (hleft trivial)
  | _ => rfl

end Body
end OpenFlow
