import OpenFlow.Instruction.Wire
import OpenFlow.Match.Wire
import OpenFlow.Wire.Text

/-!
# The wire form of statistics

Most records have a fixed layout.  Those that end in a list, and those of
groups, open with their own length, which says how far the list goes.
-/

namespace OpenFlow

namespace SwitchDescription

/-- The width of a description. -/
def textWidth : Nat := 256

/-- The width of a serial number. -/
def serialWidth : Nat := 32

/-- The number of bytes of a switch description. -/
def size : Nat := 4 * textWidth + serialWidth

/-- Read a switch description. -/
def read : Reader SwitchDescription := do
  let manufacturer ← Reader.description textWidth
  let hardware ← Reader.description textWidth
  let software ← Reader.description textWidth
  let serialNumber ← Reader.description serialWidth
  let datapath ← Reader.description textWidth
  return ⟨manufacturer, hardware, software, serialNumber, datapath⟩

/-- Append a switch description. -/
def write (d : SwitchDescription) : Writer :=
  Writer.text textWidth d.manufacturer ++ Writer.text textWidth d.hardware
    ++ Writer.text textWidth d.software ++ Writer.text serialWidth d.serialNumber
    ++ Writer.text textWidth d.datapath

end SwitchDescription

instance : Message SwitchDescription where
  size _ := SwitchDescription.size
  read _ := SwitchDescription.read
  write := SwitchDescription.write

namespace FlowStatsRequest

/-- The size of the part in front of the match. -/
def fixedSize : Nat := 32

/-- The number of bytes of a request. -/
def size (r : FlowStatsRequest) : Nat := fixedSize + r.pattern.size

/-- Read a request. -/
def read (ctx : Context) : Reader FlowStatsRequest := do
  let tableId ← Reader.u8
  Reader.skip 3
  let outPort ← Reader.u32
  let outGroup ← Reader.u32
  Reader.skip 4
  let cookie ← Reader.u64
  let cookieMask ← Reader.u64
  let pattern ← Match.read ctx
  return { tableId, outPort, outGroup, cookie, cookieMask, pattern }

/-- Append a request. -/
def write (r : FlowStatsRequest) : Writer :=
  Writer.u8 r.tableId ++ Writer.zeros 3 ++ Writer.u32 r.outPort ++ Writer.u32 r.outGroup
    ++ Writer.zeros 4 ++ Writer.u64 r.cookie ++ Writer.u64 r.cookieMask ++ r.pattern.write

end FlowStatsRequest

instance : Message FlowStatsRequest where
  size := FlowStatsRequest.size
  read := FlowStatsRequest.read
  write := FlowStatsRequest.write

namespace FlowStats

/-- The size of the part in front of the match. -/
def fixedSize : Nat := 48

/-- The number of bytes of a record. -/
def size (s : FlowStats) : Nat :=
  fixedSize + s.pattern.size + Element.listLength s.instructions

/-- Read a record.  What its length leaves behind the match is its instructions. -/
def read (ctx : Context) : Reader FlowStats := do
  let start ← Reader.cursor
  let length := (← Reader.u16).toNat
  let tableId ← Reader.u8
  Reader.skip 1
  let durationSec ← Reader.u32
  let durationNsec ← Reader.u32
  let priority ← Reader.u16
  let idleTimeout ← Reader.u16
  let hardTimeout ← Reader.u16
  let flags ← Reader.u16
  Reader.skip 4
  let cookie ← Reader.u64
  let packetCount ← Reader.u64
  let byteCount ← Reader.u64
  let pattern ← Match.read ctx
  let consumed := (← Reader.cursor).pos - start.pos
  let instructions ← Element.readList ctx (length - consumed)
  return { tableId, durationSec, durationNsec, priority, idleTimeout, hardTimeout, flags,
           cookie, packetCount, byteCount, pattern, instructions }

/-- Append a record. -/
def write (s : FlowStats) : Writer :=
  Writer.length16 "flow stats" s.size ++ Writer.u8 s.tableId ++ Writer.zeros 1
    ++ Writer.u32 s.durationSec ++ Writer.u32 s.durationNsec ++ Writer.u16 s.priority
    ++ Writer.u16 s.idleTimeout ++ Writer.u16 s.hardTimeout ++ Writer.u16 s.flags
    ++ Writer.zeros 4 ++ Writer.u64 s.cookie ++ Writer.u64 s.packetCount
    ++ Writer.u64 s.byteCount ++ s.pattern.write ++ Element.writeList s.instructions

end FlowStats

instance : Message FlowStats where
  size := FlowStats.size
  read := FlowStats.read
  write := FlowStats.write

namespace AggregateStats

/-- The number of bytes of a record. -/
def size : Nat := 24

/-- Read a record. -/
def read : Reader AggregateStats := do
  let packetCount ← Reader.u64
  let byteCount ← Reader.u64
  let flowCount ← Reader.u32
  Reader.skip 4
  return { packetCount, byteCount, flowCount }

/-- Append a record. -/
def write (s : AggregateStats) : Writer :=
  Writer.u64 s.packetCount ++ Writer.u64 s.byteCount ++ Writer.u32 s.flowCount
    ++ Writer.zeros 4

end AggregateStats

instance : Message AggregateStats where
  size _ := AggregateStats.size
  read _ := AggregateStats.read
  write := AggregateStats.write

namespace TableStats

/-- The number of bytes of a record. -/
def size : Nat := 24

/-- Read a record. -/
def read : Reader TableStats := do
  let tableId ← Reader.u8
  Reader.skip 3
  let activeCount ← Reader.u32
  let lookupCount ← Reader.u64
  let matchedCount ← Reader.u64
  return { tableId, activeCount, lookupCount, matchedCount }

/-- Append a record. -/
def write (s : TableStats) : Writer :=
  Writer.u8 s.tableId ++ Writer.zeros 3 ++ Writer.u32 s.activeCount
    ++ Writer.u64 s.lookupCount ++ Writer.u64 s.matchedCount

end TableStats

instance : Message TableStats where
  size _ := TableStats.size
  read _ := TableStats.read
  write := TableStats.write

namespace PortQueueRequest

/-- The number of bytes of a request. -/
def size : Nat := 8

/-- Read a request. -/
def read : Reader PortQueueRequest := do
  let portNo ← Reader.u32
  let queueId ← Reader.u32
  return { portNo, queueId }

/-- Append a request. -/
def write (r : PortQueueRequest) : Writer := Writer.u32 r.portNo ++ Writer.u32 r.queueId

end PortQueueRequest

instance : Message PortQueueRequest where
  size _ := PortQueueRequest.size
  read _ := PortQueueRequest.read
  write := PortQueueRequest.write

namespace PortStats

/-- The number of bytes of a record. -/
def size : Nat := 112

/-- Read a record. -/
def read : Reader PortStats := do
  let portNo ← Reader.u32
  Reader.skip 4
  let rxPackets ← Reader.u64
  let txPackets ← Reader.u64
  let rxBytes ← Reader.u64
  let txBytes ← Reader.u64
  let rxDropped ← Reader.u64
  let txDropped ← Reader.u64
  let rxErrors ← Reader.u64
  let txErrors ← Reader.u64
  let rxFrameErr ← Reader.u64
  let rxOverErr ← Reader.u64
  let rxCrcErr ← Reader.u64
  let collisions ← Reader.u64
  let durationSec ← Reader.u32
  let durationNsec ← Reader.u32
  return { portNo, rxPackets, txPackets, rxBytes, txBytes, rxDropped, txDropped, rxErrors,
           txErrors, rxFrameErr, rxOverErr, rxCrcErr, collisions, durationSec, durationNsec }

/-- Append a record. -/
def write (s : PortStats) : Writer :=
  Writer.u32 s.portNo ++ Writer.zeros 4 ++ Writer.u64 s.rxPackets ++ Writer.u64 s.txPackets
    ++ Writer.u64 s.rxBytes ++ Writer.u64 s.txBytes ++ Writer.u64 s.rxDropped
    ++ Writer.u64 s.txDropped ++ Writer.u64 s.rxErrors ++ Writer.u64 s.txErrors
    ++ Writer.u64 s.rxFrameErr ++ Writer.u64 s.rxOverErr ++ Writer.u64 s.rxCrcErr
    ++ Writer.u64 s.collisions ++ Writer.u32 s.durationSec ++ Writer.u32 s.durationNsec

end PortStats

instance : Message PortStats where
  size _ := PortStats.size
  read _ := PortStats.read
  write := PortStats.write

namespace QueueStats

/-- The number of bytes of a record. -/
def size : Nat := 40

/-- Read a record. -/
def read : Reader QueueStats := do
  let portNo ← Reader.u32
  let queueId ← Reader.u32
  let txBytes ← Reader.u64
  let txPackets ← Reader.u64
  let txErrors ← Reader.u64
  let durationSec ← Reader.u32
  let durationNsec ← Reader.u32
  return { portNo, queueId, txBytes, txPackets, txErrors, durationSec, durationNsec }

/-- Append a record. -/
def write (s : QueueStats) : Writer :=
  Writer.u32 s.portNo ++ Writer.u32 s.queueId ++ Writer.u64 s.txBytes
    ++ Writer.u64 s.txPackets ++ Writer.u64 s.txErrors ++ Writer.u32 s.durationSec
    ++ Writer.u32 s.durationNsec

end QueueStats

instance : Message QueueStats where
  size _ := QueueStats.size
  read _ := QueueStats.read
  write := QueueStats.write

namespace IdRequest

/-- The number of bytes of a request. -/
def size : Nat := 8

/-- Read a request. -/
def read : Reader IdRequest := do
  let id ← Reader.u32
  Reader.skip 4
  return { id }

/-- Append a request. -/
def write (r : IdRequest) : Writer := Writer.u32 r.id ++ Writer.zeros 4

end IdRequest

instance : Message IdRequest where
  size _ := IdRequest.size
  read _ := IdRequest.read
  write := IdRequest.write

namespace BucketCounter

/-- The number of bytes of the counters of a bucket. -/
def size : Nat := 16

/-- Read the counters of a bucket. -/
def read : Reader BucketCounter := do
  let packetCount ← Reader.u64
  let byteCount ← Reader.u64
  return { packetCount, byteCount }

/-- Append the counters of a bucket. -/
def write (b : BucketCounter) : Writer := Writer.u64 b.packetCount ++ Writer.u64 b.byteCount

end BucketCounter

namespace GroupStats

/-- The size of the part in front of the buckets. -/
def fixedSize : Nat := 40

/-- The number of bytes of a record. -/
def size (s : GroupStats) : Nat := fixedSize + BucketCounter.size * s.buckets.length

/-- Read a record.  Its length says how many buckets it has. -/
def read : Reader GroupStats := do
  let length := (← Reader.u16).toNat
  Reader.skip 2
  let groupId ← Reader.u32
  let refCount ← Reader.u32
  Reader.skip 4
  let packetCount ← Reader.u64
  let byteCount ← Reader.u64
  let durationSec ← Reader.u32
  let durationNsec ← Reader.u32
  let buckets ← Reader.times BucketCounter.read ((length - fixedSize) / BucketCounter.size)
  return { groupId, refCount, packetCount, byteCount, durationSec, durationNsec, buckets }

/-- Append a record. -/
def write (s : GroupStats) : Writer :=
  Writer.length16 "group stats" s.size ++ Writer.zeros 2 ++ Writer.u32 s.groupId
    ++ Writer.u32 s.refCount ++ Writer.zeros 4 ++ Writer.u64 s.packetCount
    ++ Writer.u64 s.byteCount ++ Writer.u32 s.durationSec ++ Writer.u32 s.durationNsec
    ++ Writer.each BucketCounter.write s.buckets

end GroupStats

instance : Message GroupStats where
  size := GroupStats.size
  read _ := GroupStats.read
  write := GroupStats.write

namespace ExperimenterBody

/-- The number of bytes of a body. -/
def size (b : ExperimenterBody) : Nat := 8 + b.data.length

/-- Read a body, up to the end of the buffer. -/
def read : Reader ExperimenterBody := do
  let experimenter ← Reader.u32
  let experimenterType ← Reader.u32
  let data ← Reader.rest
  return { experimenter, experimenterType, data }

/-- Append a body. -/
def write (b : ExperimenterBody) : Writer :=
  Writer.u32 b.experimenter ++ Writer.u32 b.experimenterType ++ Writer.bytes b.data

end ExperimenterBody

instance : Message ExperimenterBody where
  size := ExperimenterBody.size
  read _ := ExperimenterBody.read
  write := ExperimenterBody.write

end OpenFlow
