import OpenFlow.Match.FixedLayout
import OpenFlow.Wire.Message

/-!
# The exact match of an Ethernet frame

The match that a packet meets exactly: the port it came in by, the addresses and
the type of its Ethernet header, what its VLAN tag says if it has one, and then
the fields of an IPv4 or ARP payload.  Any other payload adds nothing.

* `Match.ofFrame`: the match of a frame.
-/

namespace OpenFlow
namespace Match

namespace Frame

/-- Set a field of a match while reading. -/
def put (m : Match) (t : FieldType) (value : OxmValue) : Reader Match :=
  Reader.lift (m.setExact t value)

/-- Read the header of the transport layer of an IPv4 packet. -/
def readTransport (m : Match) (protocol : UInt8) : Reader Match := do
  if protocol = protocolIcmp then
    let m ← put m .icmpv4Type (.u8 (← Reader.u8))
    put m .icmpv4Code (.u8 (← Reader.u8))
  else
    match portFields? protocol with
    | some (source, destination) =>
      let m ← put m source (.u16 (← Reader.u16))
      put m destination (.u16 (← Reader.u16))
    | none => return m

/-- Read an IPv4 packet.  Its header is as many words of four bytes as the low
half of its first byte says. -/
def readIpv4 (m : Match) : Reader Match := do
  let packet ← Reader.cursor
  let headerWords := (← Reader.u8) &&& 0x0f
  let tos ← Reader.u8
  let m ← put m .ipDscp (.u8 ((tos &&& 0xfc) >>> 2))
  Reader.moveTo (packet.advance 9)
  let protocol ← Reader.u8
  let m ← put m .ipProto (.u8 protocol)
  Reader.moveTo (packet.advance 12)
  let m ← put m .ipv4Src (.u32 (← Reader.u32))
  let m ← put m .ipv4Dst (.u32 (← Reader.u32))
  Reader.moveTo (packet.advance (4 * headerWords.toNat))
  readTransport m protocol

/-- Read an ARP packet.  Of its operation the low byte is kept, and of its
addresses those of IPv4. -/
def readArp (m : Match) : Reader Match := do
  let packet ← Reader.cursor
  Reader.moveTo (packet.advance 6)
  let operation ← Reader.u16
  let m ← put m .arpOp (.u16 (operation &&& 0xff))
  Reader.moveTo (packet.advance 2)
  let protocol ← Reader.u16
  Reader.moveTo (packet.advance 5)
  let addressLength ← Reader.u8
  if protocol = etherTypeIpv4 && addressLength = 4 then
    Reader.moveTo (packet.advance 14)
    let m ← put m .arpSpa (.u32 (← Reader.u32))
    Reader.moveTo (packet.advance 24)
    put m .arpTpa (.u32 (← Reader.u32))
  else return m

/-- Read what an Ethernet frame holds, by its type. -/
def readPayload (m : Match) (etherType : UInt16) : Reader Match :=
  if etherType = etherTypeIpv4 then readIpv4 m
  else if etherType = etherTypeArp then readArp m
  else return m

/-- Read an Ethernet frame. -/
def read (inPort : UInt32) : Reader Match := do
  let m ← put .all .inPort (.u32 inPort)
  let m ← put m .ethDst (.bytes (← Reader.bytes 6))
  let m ← put m .ethSrc (.bytes (← Reader.bytes 6))
  let etherType ← Reader.u16
  let m ← put m .ethType (.u16 etherType)
  if etherType = etherTypeVlan then
    let tag ← Reader.u16
    let m ← put m .vlanVid (.u16 (tag &&& 0xfff))
    let m ← put m .vlanPcp (.u8 ((tag &&& 0xe000) >>> 13).toUInt8)
    readPayload m (← Reader.u16)
  else readPayload m etherType

end Frame

/-- The match that a frame coming in by a port meets exactly. -/
def ofFrame (frame : Bytes) (inPort : UInt32) : Except Error Match :=
  ((Frame.read inPort).run (Cursor.start frame)).result

/-- The match of a frame that came in by the port the context names. -/
def ofFrameIn (ctx : Context) (frame : Bytes) : Except Error Match :=
  ofFrame frame ctx.inPort

end Match
end OpenFlow
