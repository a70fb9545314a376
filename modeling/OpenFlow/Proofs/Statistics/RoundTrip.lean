import OpenFlow.Proofs.Instruction.RoundTrip
import OpenFlow.Proofs.Match.RoundTrip
import OpenFlow.Proofs.Text.RoundTrip
import OpenFlow.Statistics.Wire

/-!
# Statistics, written and read back

Each record is a layout, and its writer and its reader go through the same fields.  The
records that hold texts, a match or instructions need these to be well formed, and those
that open with their own length need it to fit 16 bits.
-/

namespace OpenFlow

/-! ## Records of a fixed layout -/

namespace SwitchDescription

instance (d : SwitchDescription) : Writer.Uniform d.write := by
  unfold write
  infer_instance

/-- A description whose texts fit their fields. -/
structure WellFormed (d : SwitchDescription) : Prop where
  manufacturer : Text.Fits textWidth d.manufacturer
  hardware : Text.Fits textWidth d.hardware
  software : Text.Fits textWidth d.software
  serialNumber : Text.Fits serialWidth d.serialNumber
  datapath : Text.Fits textWidth d.datapath

theorem agree {d : SwitchDescription} (h : d.WellFormed) (c : Cursor) (tail : Bytes) :
    Agree d.write read c size tail d := by
  unfold write read
  simp only [Writer.append_assoc]
  exact Agree.of_size_eq (Agree.text h.manufacturer (Agree.text h.hardware
    (Agree.text h.software (Agree.text h.serialNumber (Agree.map (Agree.field h.datapath))))))

end SwitchDescription

namespace AggregateStats

instance (s : AggregateStats) : Writer.Uniform s.write := by
  unfold write
  infer_instance

theorem agree (s : AggregateStats) (c : Cursor) (tail : Bytes) :
    Agree s.write read c size tail s := by
  unfold write read
  simp only [Writer.append_assoc]
  exact Agree.of_size_eq (Agree.u64 (Agree.u64 (Agree.u32 (Agree.last_zeros _ _))))

end AggregateStats

namespace TableStats

instance (s : TableStats) : Writer.Uniform s.write := by
  unfold write
  infer_instance

theorem agree (s : TableStats) (c : Cursor) (tail : Bytes) :
    Agree s.write read c size tail s := by
  unfold write read
  simp only [Writer.append_assoc]
  exact Agree.of_size_eq (Agree.u8 (Agree.zeros (Agree.u32 (Agree.u64 (Agree.last_u64 _ _)))))

end TableStats

namespace PortQueueRequest

instance (r : PortQueueRequest) : Writer.Uniform r.write := by
  unfold write
  infer_instance

theorem agree (r : PortQueueRequest) (c : Cursor) (tail : Bytes) :
    Agree r.write read c size tail r :=
  Agree.of_size_eq (Agree.u32 (Agree.last_u32 _ _))

end PortQueueRequest

namespace PortStats

instance (s : PortStats) : Writer.Uniform s.write := by
  unfold write
  infer_instance

theorem agree (s : PortStats) (c : Cursor) (tail : Bytes) :
    Agree s.write read c size tail s := by
  unfold write read
  simp only [Writer.append_assoc]
  exact Agree.of_size_eq (Agree.u32 (Agree.zeros (Agree.u64 (Agree.u64 (Agree.u64 (Agree.u64
    (Agree.u64 (Agree.u64 (Agree.u64 (Agree.u64 (Agree.u64 (Agree.u64 (Agree.u64 (Agree.u64
      (Agree.u32 (Agree.last_u32 _ _))))))))))))))))

end PortStats

namespace QueueStats

instance (s : QueueStats) : Writer.Uniform s.write := by
  unfold write
  infer_instance

theorem agree (s : QueueStats) (c : Cursor) (tail : Bytes) :
    Agree s.write read c size tail s := by
  unfold write read
  simp only [Writer.append_assoc]
  exact Agree.of_size_eq (Agree.u32 (Agree.u32 (Agree.u64 (Agree.u64 (Agree.u64
    (Agree.u32 (Agree.last_u32 _ _)))))))

end QueueStats

namespace IdRequest

instance (r : IdRequest) : Writer.Uniform r.write := by
  unfold write
  infer_instance

theorem agree (r : IdRequest) (c : Cursor) (tail : Bytes) :
    Agree r.write read c size tail r :=
  Agree.of_size_eq (Agree.u32 (Agree.last_zeros _ _))

end IdRequest

namespace ExperimenterBody

instance (b : ExperimenterBody) : Writer.Uniform b.write := by
  unfold write
  infer_instance

/-- The data of an experimenter goes on to the end of the buffer. -/
theorem agree (b : ExperimenterBody) (c : Cursor) : Agree b.write read c b.size [] b := by
  unfold write read
  rw [Writer.append_assoc]
  refine Agree.of_size_eq (Agree.u32 (Agree.u32 (Agree.map (Agree.rest b.data _)))) ?_
  unfold size
  omega

end ExperimenterBody

/-! ## Records with a match or a list -/

namespace BucketCounter

instance (b : BucketCounter) : Writer.Uniform b.write := by
  unfold write
  infer_instance

theorem agree (b : BucketCounter) (c : Cursor) (tail : Bytes) :
    Agree b.write read c size tail b :=
  Agree.of_size_eq (Agree.u64 (Agree.last_u64 _ _))

end BucketCounter

namespace GroupStats

instance (s : GroupStats) : Writer.Uniform s.write := by
  unfold write
  infer_instance

theorem opensWith_write (s : GroupStats) : s.write.OpensWith s.size := by
  unfold write
  simp only [Writer.append_assoc]
  exact ⟨_, _, inferInstance, rfl⟩

theorem agree {s : GroupStats} (hlt : s.size < 65536) (c : Cursor) (tail : Bytes) :
    Agree s.write read c s.size tail s := by
  have hcount : ((UInt16.ofNat s.size).toNat - fixedSize) / BucketCounter.size =
      s.buckets.length := by
    rw [UInt16.toNat_ofNat_of_lt' hlt]
    change (40 + 16 * s.buckets.length - 40) / 16 = s.buckets.length
    omega
  unfold write read
  simp only [Writer.append_assoc]
  refine Agree.of_size_eq (Agree.length16 hlt (Agree.zeros (Agree.u32 (Agree.u32 (Agree.zeros
    (Agree.u64 (Agree.u64 (Agree.u32 (Agree.u32
      (m := BucketCounter.size * s.buckets.length) ?_))))))))) ?_
  · rw [hcount]
    exact Agree.map (Agree.times (fun b _ c tail => BucketCounter.agree b c tail) _ tail)
  · unfold size fixedSize
    omega

end GroupStats

namespace FlowStatsRequest

instance (r : FlowStatsRequest) : Writer.Uniform r.write := by
  unfold write
  infer_instance

/-- **A request for flow statistics is read back** if its match is. -/
theorem agree {ctx : Context} (hfields : ctx.registries.fields = .basic) {r : FlowStatsRequest}
    (h : r.pattern.WellFormed) (c : Cursor) (tail : Bytes) :
    Agree r.write (read ctx) c r.size tail r := by
  unfold write read
  simp only [Writer.append_assoc]
  refine Agree.of_size_eq (Agree.u8 (Agree.zeros (Agree.u32 (Agree.u32 (Agree.zeros (Agree.u64
    (Agree.u64 (Agree.map (Match.agree hfields h _ tail))))))))) ?_
  unfold size fixedSize
  omega

end FlowStatsRequest

namespace FlowStats

instance (s : FlowStats) : Writer.Uniform s.write := by
  unfold write
  infer_instance

theorem opensWith_write (s : FlowStats) : s.write.OpensWith s.size := by
  unfold write
  simp only [Writer.append_assoc]
  exact ⟨_, _, inferInstance, rfl⟩

variable {ctx : Context}

/-- Statistics of a flow entry whose instructions are written by another writer.  What the reader
has passed in front of the instructions is the fixed part and the match. -/
theorem agree_of_list {s : FlowStats} {n : Nat} {w : Writer} [Writer.Uniform w] {tail : Bytes}
    (hpattern : ∀ f ∈ s.pattern.fields, ctx.registries.fields.Finds f.descriptor)
    (hspan : s.pattern.span < 65536) (hlt : fixedSize + s.pattern.size + n < 65536)
    (hlist : ∀ c, Agree w (Element.readList ctx n) c n tail s.instructions) (c : Cursor) :
    Agree (Writer.length16 "flow stats" (fixedSize + s.pattern.size + n) ++
      (Writer.u8 s.tableId ++ (Writer.zeros 1 ++ (Writer.u32 s.durationSec ++
      (Writer.u32 s.durationNsec ++ (Writer.u16 s.priority ++ (Writer.u16 s.idleTimeout ++
      (Writer.u16 s.hardTimeout ++ (Writer.u16 s.flags ++ (Writer.zeros 4 ++
      (Writer.u64 s.cookie ++ (Writer.u64 s.packetCount ++ (Writer.u64 s.byteCount ++
      (s.pattern.write ++ w)))))))))))))) (read ctx) c (fixedSize + s.pattern.size + n) tail s := by
  refine Agree.cursor (Agree.of_size_eq (Agree.length16 hlt (Agree.u8 (Agree.zeros (Agree.u32
    (Agree.u32 (Agree.u16 (Agree.u16 (Agree.u16 (Agree.u16 (Agree.zeros (Agree.u64 (Agree.u64
      (Agree.u64 (Agree.bind (fun tail => Match.agree_of_finds hpattern hspan _ tail) (Agree.cursor
        (n := n) ?_))))))))))))))) ?_)
  · have hfixed : 2 + 1 + 1 + 4 + 4 + 2 + 2 + 2 + 2 + 4 + 8 + 8 + 8 = fixedSize := rfl
    simp only [Cursor.advance_advance, Cursor.pos_advance]
    rw [hfixed, Nat.add_sub_cancel_left, UInt16.toNat_ofNat_of_lt' hlt, Nat.add_sub_cancel_left]
    exact Agree.map (hlist _)
  · unfold fixedSize
    omega

/-- Statistics of a flow entry are read back if their instructions are, and if as many are
allowed. -/
theorem agree_of_readsBack {s : FlowStats}
    (hpattern : ∀ f ∈ s.pattern.fields, ctx.registries.fields.Finds f.descriptor)
    (hspan : s.pattern.span < 65536) (hlimit : ctx.Allows s.instructions.length)
    (hinstructions : ∀ i ∈ s.instructions, Element.ReadsBack ctx i) (hlt : s.size < 65536)
    (c : Cursor) (tail : Bytes) : Agree s.write (read ctx) c s.size tail s := by
  have hlen : ∀ i ∈ s.instructions, Element.length i < 65536 := Element.length_lt_of_mem hlt
  unfold write
  simp only [Writer.append_assoc]
  exact agree_of_list hpattern hspan hlt
    (fun c => Element.agree_list hlimit hinstructions hlen c tail) c

/-- Statistics of a flow entry that their wire form determines. -/
structure WellFormed (s : FlowStats) : Prop where
  pattern : s.pattern.WellFormed
  instructions : ∀ i ∈ s.instructions, i.WellFormed

/-- **Statistics of a flow entry are read back** if their match and their instructions are. -/
theorem agree (hreg : ctx.registries = .standard) (hlimit : ctx.elementLimit = none)
    {s : FlowStats} (h : s.WellFormed) (hlt : s.size < 65536) (c : Cursor) (tail : Bytes) :
    Agree s.write (read ctx) c s.size tail s := by
  have hbasic : ∀ t : FieldType, ctx.registries.fields.Holds t.descriptor := by
    rw [hreg]
    exact FieldCatalog.holds_basic
  exact agree_of_readsBack (fun f hf => (h.pattern.basic f hf).finds hbasic) h.pattern.span_lt
    (.of_unlimited hlimit _)
    (fun i hi => Instruction.readsBack hreg hlimit (h.instructions i hi)) hlt c tail

end FlowStats
end OpenFlow
