import OpenFlow.Hello.Wire
import OpenFlow.Meter.Wire
import OpenFlow.Queue.Wire
import OpenFlow.Statistics.Wire
import OpenFlow.Table.Wire

/-!
# The wire form of multipart messages

The bodies of a message follow each other without padding, in the bytes that the
length of the message leaves them.  Some bodies open with their own length, a
request for flow statistics ends in a match that has one, and a body of an
unknown shape takes all that is left.  Reading stops without an error at a body
that would run past the end or is too short for its own shape.

Main definitions:

* `Body.span?`: how far a body goes, judged by its shape and its bytes.
* `Body.readMembers`, `Body.readList`: the bodies in the bytes of a message.
* `Body.readListAt`: bodies at a position of a buffer, where position and length are
  machine words.
* `MultipartMessage.read`, `MultipartMessage.write`: a whole message.
-/

namespace OpenFlow
namespace Body

/-- The number of bytes of a body. -/
def size : Body → Nat
  | empty => 0
  | description _ => SwitchDescription.size
  | flowStatsRequest r | aggregateStatsRequest r => r.size
  | flowStats s => s.size
  | aggregateStats _ => AggregateStats.size
  | tableStats _ => TableStats.size
  | portStatsRequest _ | queueStatsRequest _ => PortQueueRequest.size
  | portStats _ => PortStats.size
  | queueStats _ => QueueStats.size
  | groupStatsRequest _ | meterRequest _ => IdRequest.size
  | groupStats s => s.size
  | meterConfig c => c.size
  | tableFeatures t => t.size
  | experimenter b => b.size
  | unknown bytes => bytes.length

/-- How far the body at the front of some bytes goes, if it is of the shape of a
blank one and `left` bytes remain for it and those behind it.  A length that is
not there to be read gives nothing. -/
def span? (blank : Body) (bytes : Bytes) (left : Nat) : Option Nat :=
  match blank with
  | flowStatsRequest _ | aggregateStatsRequest _ =>
    (Bytes.peekUInt16? (bytes.drop (FlowStatsRequest.fixedSize + 2))).map fun length =>
      FlowStatsRequest.fixedSize + align8 (max length.toNat Match.headerSize)
  | flowStats _ | groupStats _ | meterConfig _ | tableFeatures _ =>
    (Bytes.peekUInt16? bytes).map UInt16.toNat
  | experimenter _ | unknown _ => some left
  | fixed => some fixed.size

/-- Read a body of the shape of a blank one. -/
def read (ctx : Context) : Body → Reader Body
  | empty => return empty
  | description _ => return description (← SwitchDescription.read)
  | flowStatsRequest _ => return flowStatsRequest (← FlowStatsRequest.read ctx)
  | flowStats _ => return flowStats (← FlowStats.read ctx)
  | aggregateStatsRequest _ => return aggregateStatsRequest (← FlowStatsRequest.read ctx)
  | aggregateStats _ => return aggregateStats (← AggregateStats.read)
  | tableStats _ => return tableStats (← TableStats.read)
  | portStatsRequest _ => return portStatsRequest (← PortQueueRequest.read)
  | portStats _ => return portStats (← PortStats.read)
  | queueStatsRequest _ => return queueStatsRequest (← PortQueueRequest.read)
  | queueStats _ => return queueStats (← QueueStats.read)
  | groupStatsRequest _ => return groupStatsRequest (← IdRequest.read)
  | groupStats _ => return groupStats (← GroupStats.read)
  | meterRequest _ => return meterRequest (← IdRequest.read)
  | meterConfig _ => return meterConfig (← MeterConfig.read ctx)
  | tableFeatures _ => return tableFeatures (← TableFeatures.read ctx)
  | experimenter _ => return experimenter (← ExperimenterBody.read)
  | unknown _ => return unknown (← Reader.rest)

/-- Append a body. -/
def write : Body → Writer
  | empty => Writer.skip
  | description d => d.write
  | flowStatsRequest r | aggregateStatsRequest r => r.write
  | flowStats s => s.write
  | aggregateStats s => s.write
  | tableStats s => s.write
  | portStatsRequest r | queueStatsRequest r => r.write
  | portStats s => s.write
  | queueStats s => s.write
  | groupStatsRequest r | meterRequest r => r.write
  | groupStats s => s.write
  | meterConfig c => c.write
  | tableFeatures t => t.write
  | experimenter b => b.write
  | unknown bytes => Writer.bytes bytes

/-- Read bodies of one shape from `left` bytes, which the buffer may not hold in
full, at most as many as the allowance says. -/
def readMembers (ctx : Context) (blank : Body) (allowance : Option Nat) (left : Nat)
    (bytes : Bytes) : Reader (List Body) :=
  if left = 0 ∨ allowance = some 0 then return []
  else
    match span? blank bytes left with
    | none => return []
    | some n =>
      if _h : 0 < n ∧ n ≤ left then
        let span := bytes.take n
        if span.length < n then return []
        else do
          match ← Reader.attempt (Reader.within span (read ctx blank)) with
          | .ok b =>
            return b :: (← readMembers ctx blank (allowance.map (· - 1)) (left - n)
              (bytes.drop n))
          | .error e => if e.isTruncation then return [] else Reader.fail e
      else return []
termination_by left

/-- The blank body of a type code in one direction. -/
def blank (ctx : Context) (direction : Direction) (code : UInt16) : Body :=
  ((ctx.registries.multipart direction).lookup? code).getD (unknown [])

/-- Read the bodies of a message of a type code, in the next `length` bytes, whose sum
with the position does not wrap.  The context has to know the direction. -/
def readList (ctx : Context) (code : UInt16) (length : Nat) : Reader (List Body) := do
  match ctx.direction with
  | none => Reader.fail .missingDirection
  | some direction =>
    let c ← Reader.cursor
    let bodies ← readMembers ctx (blank ctx direction code) ctx.elementLimit length c.rest
    Reader.moveTo (c.advanceWithin length)
    return bodies

/-- Whether a body takes all that is left. -/
def takesRest : Body → Bool
  | experimenter _ | unknown _ => true
  | _ => false

/-- Read the bodies of a message of a type code, in the next `length` bytes from a
position of a buffer on, which lies in the buffer or at its end.  Where the end of
these bytes wraps, a body that takes all that is left would have to end in front of
its start, and there is no outcome: the program stops.  Other bodies go by their own
sizes, and only the cursor goes back to where the end is. -/
def readListAt (ctx : Context) (code : UInt16) (buf : Bytes) (start length : UInt64) :
    Option (Outcome (List Body)) :=
  match ctx.direction with
  | none => some ⟨.error .missingDirection, Cursor.at buf start.toNat, 0⟩
  | some direction =>
    let blank := blank ctx direction code
    let stop := start + length
    if stop < start ∧ stop.toNat ≤ buf.length ∧ blank.takesRest ∧ ctx.elementLimit ≠ some 0 then
      none
    else
      let reader : Reader (List Body) := do
        let bodies ← readMembers ctx blank ctx.elementLimit length.toNat (buf.drop start.toNat)
        Reader.moveTo (Cursor.at buf (Cursor.stop buf start length))
        return bodies
      some (reader.run (Cursor.at buf start.toNat))

end Body

namespace Direction

/-- The kind of message that carries the bodies of one direction. -/
def kind : Direction → MessageKind
  | request => .multipartRequest
  | reply => .multipartReply

/-- The direction of a kind of message. -/
def ofKind? : Option MessageKind → Option Direction
  | some .multipartRequest => some request
  | some .multipartReply => some reply
  | _ => none

@[simp] theorem ofKind?_kind (d : Direction) : ofKind? (some d.kind) = some d := by
  cases d <;> rfl

end Direction

namespace MultipartMessage

/-- The size of the part in front of the bodies. -/
def fixedSize : Nat := 16

/-- The number of bytes of a message. -/
def size (m : MultipartMessage) : Nat := fixedSize + total Body.size m.bodies

/-- Read a message. -/
def read (ctx : Context) : Reader MultipartMessage := do
  let header ← MessageHeader.read
  match Direction.ofKind? header.kind? with
  | none => Reader.fail (.malformedHeader (.notMultipart header.kind?))
  | some direction =>
    let length := header.length.toNat
    if length < fixedSize then
      Reader.fail (.malformedHeader (.multipartLength length))
    else
      let code ← Reader.u16
      let flags ← Reader.u16
      Reader.skip 4
      let bodies ← Body.readList { ctx with direction := some direction } code
        (length - fixedSize)
      return ⟨direction, header.xid, code, flags, bodies⟩

/-- Append a message. -/
def write (m : MultipartMessage) : Writer :=
  MessageHeader.announce "multipart" m.direction.kind m.size m.xid ++ Writer.u16 m.code
    ++ Writer.u16 m.flags ++ Writer.zeros 4 ++ Writer.each Body.write m.bodies

end MultipartMessage

instance : Message MultipartMessage where
  size := MultipartMessage.size
  read := MultipartMessage.read
  write := MultipartMessage.write

end OpenFlow
