import OpenFlow.Match.Basic

/-!
# Matches of the fixed layout

Before match fields had headers of their own, a match was a fixed layout of 88
bytes: every field in its place, and a word of wildcard bits that says which of
them are matched on.  Such a match reads as the fields that stand for it.

A wildcard bit that is set means that its field is not matched on.  A mask in
this layout marks the bits that do not matter, so a mask that is all zero says
that the value is matched in full; it is the one mask that is kept.
-/

namespace OpenFlow

/-! ## Numbers of the protocols below -/

/-- The type of an Ethernet frame that holds IPv4. -/
def etherTypeIpv4 : UInt16 := 0x0800

/-- The type of an Ethernet frame that holds ARP. -/
def etherTypeArp : UInt16 := 0x0806

/-- The type of an Ethernet frame with a VLAN tag. -/
def etherTypeVlan : UInt16 := 0x8100

/-- The IP protocol ICMP. -/
def protocolIcmp : UInt8 := 1

/-- The IP protocol TCP. -/
def protocolTcp : UInt8 := 6

/-- The IP protocol UDP. -/
def protocolUdp : UInt8 := 17

/-- The IP protocol SCTP. -/
def protocolSctp : UInt8 := 132

/-- The fields that hold the source and destination ports of a protocol. -/
def portFields? (protocol : UInt8) : Option (FieldType × FieldType) :=
  if protocol = protocolTcp then some (.tcpSrc, .tcpDst)
  else if protocol = protocolUdp then some (.udpSrc, .udpDst)
  else if protocol = protocolSctp then some (.sctpSrc, .sctpDst)
  else none

/-! ## Wildcards -/

namespace Wildcards

/-- The ingress port is not matched on. -/
def inPort : UInt32 := 0x001

/-- The VLAN identifier is not matched on. -/
def vlanVid : UInt32 := 0x002

/-- The VLAN priority is not matched on. -/
def vlanPcp : UInt32 := 0x004

/-- The Ethernet type is not matched on. -/
def etherType : UInt32 := 0x008

/-- The type of service is not matched on. -/
def tos : UInt32 := 0x010

/-- The IP protocol is not matched on. -/
def protocol : UInt32 := 0x020

/-- The source port is not matched on. -/
def sourcePort : UInt32 := 0x040

/-- The destination port is not matched on. -/
def destinationPort : UInt32 := 0x080

/-- The MPLS label is not matched on. -/
def mplsLabel : UInt32 := 0x100

/-- The MPLS traffic class is not matched on. -/
def mplsTc : UInt32 := 0x200

/-- Whether the field that a flag stands for is matched on. -/
def isExact (wildcards flag : UInt32) : Bool := wildcards &&& flag == 0

end Wildcards

/-! ## Reading -/

namespace Match.FixedLayout

/-- The size of the layout, header included. -/
def size : Nat := 88

/-- Set a field if the wildcards say that it is matched on. -/
def setUnlessWild (m : Match) (wildcards flag : UInt32) (t : FieldType) (value : OxmValue) :
    Reader Match :=
  if Wildcards.isExact wildcards flag then Reader.lift (m.setExact t value) else return m

/-- Set a field from a value and the bits of it that do not matter. -/
def setInverse (m : Match) (t : FieldType) (value ignored : OxmValue) : Reader Match :=
  Reader.lift (if ignored.isZero then m.setMasked t value ignored else m.setExact t value)

/-- Read an Ethernet address and its mask into a field. -/
def readEthernet (m : Match) (t : FieldType) : Reader Match := do
  let address ← Reader.bytes 6
  let ignored ← Reader.bytes 6
  setInverse m t (.bytes address) (.bytes ignored)

/-- Read an IPv4 address and its mask into a field, unless the address is zero. -/
def readIpv4 (m : Match) (t : FieldType) : Reader Match := do
  let address ← Reader.u32
  let ignored ← Reader.u32
  if address = 0 then return m else setInverse m t (.u32 address) (.u32 ignored)

/-- Read the ports of a protocol and all that follows them. -/
def readTransport (m : Match) (w : UInt32) (source destination : FieldType) : Reader Match := do
  let m ← setUnlessWild m w Wildcards.sourcePort source (.u16 (← Reader.u16))
  let m ← setUnlessWild m w Wildcards.destinationPort destination (.u16 (← Reader.u16))
  let m ← setUnlessWild m w Wildcards.mplsLabel .mplsLabel (.u32 (← Reader.u32))
  let m ← setUnlessWild m w Wildcards.mplsTc .mplsTc (.u8 (← Reader.u8))
  let _ ← Reader.bytes 3
  let metadata ← Reader.u64
  let ignored ← Reader.u64
  setInverse m .metadata (.u64 metadata) (.u64 ignored)

/-- Read the fields of the network layer and all that follows them.  A protocol
that is not matched on counts as none, and ends the match. -/
def readNetwork (m : Match) (w : UInt32) : Reader Match := do
  let m ← setUnlessWild m w Wildcards.tos .ipDscp (.u8 (← Reader.u8))
  let protocol ← Reader.u8
  let m ← setUnlessWild m w Wildcards.protocol .ipProto (.u8 protocol)
  let m ← readIpv4 m .ipv4Src
  let m ← readIpv4 m .ipv4Dst
  if Wildcards.isExact w Wildcards.protocol then
    match portFields? protocol with
    | some (source, destination) => readTransport m w source destination
    | none => return m
  else return m

/-- Whether the fields of the network layer are read for an Ethernet type. -/
def hasNetwork (etherType : UInt16) : Bool :=
  etherType == etherTypeIpv4 || etherType == etherTypeArp || etherType == etherTypeVlan

/-- Read what follows the header of a match of the fixed layout.  An Ethernet
type that is not matched on ends the match. -/
def readBody : Reader Match := do
  let port ← Reader.u32
  let w ← Reader.u32
  let m ← setUnlessWild .all w Wildcards.inPort .inPort (.u32 port)
  let m ← readEthernet m .ethSrc
  let m ← readEthernet m .ethDst
  let m ← setUnlessWild m w Wildcards.vlanVid .vlanVid (.u16 (← Reader.u16))
  let m ← setUnlessWild m w Wildcards.vlanPcp .vlanPcp (.u8 (← Reader.u8))
  let _ ← Reader.u8
  let etherType ← Reader.u16
  let m ← setUnlessWild m w Wildcards.etherType .ethType (.u16 etherType)
  if Wildcards.isExact w Wildcards.etherType && hasNetwork etherType then readNetwork m w
  else return m

end Match.FixedLayout
end OpenFlow
