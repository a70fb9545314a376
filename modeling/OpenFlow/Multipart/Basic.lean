import OpenFlow.Hello.Basic
import OpenFlow.Meter.Basic
import OpenFlow.Queue.Basic
import OpenFlow.Statistics.Basic
import OpenFlow.Table.Basic

/-!
# Multipart messages

A multipart message carries bodies of one shape, which its type code and its
direction decide together.  `Body.requestTypes` and `Body.replyTypes` are the
registries of the known shapes; a body of a code they do not know is a string of
bytes.
-/

namespace OpenFlow

/-- The side of an exchange a message is from. -/
inductive Direction where
  | request
  | reply
  deriving DecidableEq, Repr

/-- A body of a multipart message. -/
inductive Body where
  /-- The body of a request that has none. -/
  | empty
  | description (d : SwitchDescription)
  | flowStatsRequest (r : FlowStatsRequest)
  | flowStats (s : FlowStats)
  | aggregateStatsRequest (r : FlowStatsRequest)
  | aggregateStats (s : AggregateStats)
  | tableStats (s : TableStats)
  | portStatsRequest (r : PortQueueRequest)
  | portStats (s : PortStats)
  | queueStatsRequest (r : PortQueueRequest)
  | queueStats (s : QueueStats)
  | groupStatsRequest (r : IdRequest)
  | groupStats (s : GroupStats)
  | meterRequest (r : IdRequest)
  | meterConfig (c : MeterConfig)
  | tableFeatures (t : TableFeatures)
  | experimenter (b : ExperimenterBody)
  /-- A body of a shape that is not known, up to the end of the message. -/
  | unknown (bytes : Bytes)
  deriving DecidableEq

namespace Body

/-- The name of the family of request bodies. -/
def requestFamily : String := "multipart request"

/-- The name of the family of reply bodies. -/
def replyFamily : String := "multipart reply"

/-- The blank features of a table. -/
def blankFeatures : TableFeatures := ⟨0, "", 0, 0, 0, 0, []⟩

/-- The registry of the known request bodies. -/
def requestTypes : Registry Body where
  family := requestFamily
  entries :=
    [(0, empty), (1, flowStatsRequest {}), (2, aggregateStatsRequest {}), (3, empty),
     (4, portStatsRequest {}), (5, queueStatsRequest {}), (6, groupStatsRequest {}), (7, empty),
     (8, empty), (9, meterRequest {}), (10, meterRequest {}), (11, empty),
     (12, tableFeatures blankFeatures), (13, empty), (0xffff, experimenter {})]

/-- The registry of the known reply bodies. -/
def replyTypes : Registry Body where
  family := replyFamily
  entries :=
    [(0, description {}), (1, flowStats {}), (2, aggregateStats {}), (3, tableStats {}),
     (4, portStats {}), (5, queueStats {}), (6, groupStats {}), (10, meterConfig ⟨0, 0, []⟩),
     (12, tableFeatures blankFeatures), (0xffff, experimenter {})]

end Body

/-- A multipart request or reply. -/
structure MultipartMessage where
  direction : Direction
  xid : UInt32
  code : UInt16
  flags : UInt16
  bodies : List Body
  deriving DecidableEq

/-- Whether further messages of the same exchange follow. -/
def MultipartMessage.more (m : MultipartMessage) : Bool := m.flags &&& 1 != 0

end OpenFlow
