import OpenFlow.Instruction.Basic
import OpenFlow.Match.Basic

/-!
# Statistics

The records that a controller asks a switch for, and those it asks with.
-/

namespace OpenFlow

/-- What a switch says about itself. -/
structure SwitchDescription where
  manufacturer : String := ""
  hardware : String := ""
  software : String := ""
  serialNumber : String := ""
  datapath : String := ""
  deriving DecidableEq, Repr

/-- Selects flow entries, for statistics of each or of all together. -/
structure FlowStatsRequest where
  tableId : UInt8 := 0
  outPort : UInt32 := 0
  outGroup : UInt32 := 0
  cookie : UInt64 := 0
  cookieMask : UInt64 := 0
  pattern : Match := .all
  deriving DecidableEq

/-- Statistics of one flow entry. -/
structure FlowStats where
  tableId : UInt8 := 0
  durationSec : UInt32 := 0
  durationNsec : UInt32 := 0
  priority : UInt16 := 0
  idleTimeout : UInt16 := 0
  hardTimeout : UInt16 := 0
  flags : UInt16 := 0
  cookie : UInt64 := 0
  packetCount : UInt64 := 0
  byteCount : UInt64 := 0
  pattern : Match := .all
  instructions : List Instruction := []
  deriving DecidableEq

/-- Statistics of several flow entries together. -/
structure AggregateStats where
  packetCount : UInt64 := 0
  byteCount : UInt64 := 0
  flowCount : UInt32 := 0
  deriving DecidableEq, Repr

/-- Statistics of a flow table. -/
structure TableStats where
  tableId : UInt8 := 0
  activeCount : UInt32 := 0
  lookupCount : UInt64 := 0
  matchedCount : UInt64 := 0
  deriving DecidableEq, Repr

/-- Names a port, or a queue of a port.  Port statistics ignore the queue. -/
structure PortQueueRequest where
  portNo : UInt32 := 0
  queueId : UInt32 := 0
  deriving DecidableEq, Repr

/-- Counters of a port. -/
structure PortStats where
  portNo : UInt32 := 0
  rxPackets : UInt64 := 0
  txPackets : UInt64 := 0
  rxBytes : UInt64 := 0
  txBytes : UInt64 := 0
  rxDropped : UInt64 := 0
  txDropped : UInt64 := 0
  rxErrors : UInt64 := 0
  txErrors : UInt64 := 0
  rxFrameErr : UInt64 := 0
  rxOverErr : UInt64 := 0
  rxCrcErr : UInt64 := 0
  collisions : UInt64 := 0
  durationSec : UInt32 := 0
  durationNsec : UInt32 := 0
  deriving DecidableEq, Repr

/-- Counters of a queue. -/
structure QueueStats where
  portNo : UInt32 := 0
  queueId : UInt32 := 0
  txBytes : UInt64 := 0
  txPackets : UInt64 := 0
  txErrors : UInt64 := 0
  durationSec : UInt32 := 0
  durationNsec : UInt32 := 0
  deriving DecidableEq, Repr

/-- Names a group or a meter. -/
structure IdRequest where
  id : UInt32 := 0
  deriving DecidableEq, Repr

/-- Counters of a bucket of a group. -/
structure BucketCounter where
  packetCount : UInt64 := 0
  byteCount : UInt64 := 0
  deriving DecidableEq, Repr

/-- Counters of a group. -/
structure GroupStats where
  groupId : UInt32 := 0
  refCount : UInt32 := 0
  packetCount : UInt64 := 0
  byteCount : UInt64 := 0
  durationSec : UInt32 := 0
  durationNsec : UInt32 := 0
  buckets : List BucketCounter := []
  deriving DecidableEq, Repr

/-- A body whose meaning is an experimenter's own. -/
structure ExperimenterBody where
  experimenter : UInt32 := 0
  experimenterType : UInt32 := 0
  data : Bytes := []
  deriving DecidableEq, Repr

end OpenFlow
