import OpenFlow.Proofs.Frame.Ethernet

/-!
# IPv4 packets in Ethernet frames

An IPv4 packet says how long its header is, in words of four bytes: five of them, and one for every
four bytes of options.  Behind the header stands what the protocol calls for.  Of that the match
takes the type and the code of an ICMP message, or the ports of a segment of TCP, UDP or SCTP; and
so these are written here by themselves, and what is left of their headers with the data.

However long the options are, the fields are those that were written.  Packets of other types, but
for ARP, add no fields at all.

Main definitions:

* `Segment`: what stands behind the header of an IPv4 packet.
* `Ipv4Packet`, `Ipv4Packet.toBytes`, `Ipv4Packet.contents`: an IPv4 packet, its wire form and its
  fields.

Main statement:

* `Match.ofFrame_ipv4`: the match of a frame around an IPv4 packet, or around a packet of a type
  that is not looked into.
-/

namespace OpenFlow

open Match.Frame
open Match.FixedLayout (place ports)

/-! ## What stands behind the header -/

/-- The protocols that have ports. -/
inductive PortProtocol where
  | tcp
  | udp
  | sctp
  deriving DecidableEq, Repr

namespace PortProtocol

/-- The number of a protocol. -/
def number : PortProtocol → UInt8
  | tcp => 6
  | udp => 17
  | sctp => 132

/-- The field of the source port. -/
def source : PortProtocol → FieldType
  | tcp => .tcpSrc
  | udp => .udpSrc
  | sctp => .sctpSrc

/-- The field of the destination port. -/
def destination : PortProtocol → FieldType
  | tcp => .tcpDst
  | udp => .udpDst
  | sctp => .sctpDst

theorem ports_number (p : PortProtocol) :
    ports p.number.toNat = some (p.source, p.destination) := by
  cases p <;> rfl

end PortProtocol

/-- What stands behind the header of an IPv4 packet, up to its end. -/
inductive Segment where
  /-- A message of ICMP.  The rest is what follows its type and its code. -/
  | icmp (type code : UInt8) (rest : Bytes)
  /-- A segment of a protocol with ports.  The rest is what follows them. -/
  | ports (protocol : PortProtocol) (source destination : UInt16) (rest : Bytes)
  /-- The data of any other protocol. -/
  | other (protocol : UInt8) (data : Bytes) (protocol_notMem : protocol ∉ [1, 6, 17, 132])

namespace Segment

/-- The number of the protocol. -/
def protocol : Segment → UInt8
  | icmp .. => 1
  | ports p .. => p.number
  | other protocol .. => protocol

/-- The wire form. -/
def toBytes : Segment → Bytes
  | icmp type code rest => type :: code :: rest
  | ports _ source destination rest =>
    Bytes.ofUInt16 source ++ Bytes.ofUInt16 destination ++ rest
  | other _ data _ => data

/-- The fields. -/
def contents : Segment → List OxmField.Content
  | icmp type code _ => [unmasked .icmpv4Type (.u8 type), unmasked .icmpv4Code (.u8 code)]
  | ports p source destination _ =>
    [unmasked p.source (.u16 source), unmasked p.destination (.u16 destination)]
  | other .. => []

/-- Another protocol has no ports, and is not ICMP. -/
theorem protocol_other {protocol : UInt8} (h : protocol ∉ [1, 6, 17, 132]) :
    protocol.toNat ≠ 1 ∧ Match.FixedLayout.ports protocol.toNat = none := by
  have hne (k : UInt8) (hk : k ∈ [1, 6, 17, 132]) : protocol.toNat ≠ k.toNat := by
    intro heq
    exact h (UInt8.toNat_inj.mp heq ▸ hk)
  refine ⟨hne 1 (by decide), ?_⟩
  have htcp := hne 6 (by decide)
  have hudp := hne 17 (by decide)
  have hsctp := hne 132 (by decide)
  unfold Match.FixedLayout.ports
  split
  case h_4 => rfl
  all_goals contradiction

/-- A segment is long enough for what is looked at. -/
theorem transportSize_le (s : Segment) : transportSize s.protocol.toNat ≤ s.toBytes.length := by
  cases s with
  | icmp type code rest => exact Nat.le_add_left 2 rest.length
  | ports p source destination rest =>
    change transportSize p.number.toNat ≤ _
    rw [transportSize_of_ports p.ports_number]
    exact Nat.le_add_left 4 rest.length
  | other protocol data h =>
    obtain ⟨hicmp, hports⟩ := protocol_other h
    change transportSize protocol.toNat ≤ _
    rw [transportSize_of_ports_eq_none hicmp hports]
    exact Nat.zero_le _

/-- Where a segment stands in a packet, its fields are told from their places. -/
theorem transport_eq (s : Segment) {packet : Bytes} {i : Nat}
    (h : ∀ k n, place packet (i + k) n = place s.toBytes k n) :
    transport packet i s.protocol.toNat = s.contents := by
  cases s with
  | icmp type code rest =>
    change transport packet i 1 = _
    rw [transport, if_pos rfl, byteAt_eq (i := i) (h 0 1), byteAt_eq (h 1 1)]
    rfl
  | ports p source destination rest =>
    have hicmp : p.number.toNat ≠ 1 := by
      cases p <;> decide
    change transport packet i p.number.toNat = _
    rw [transport, if_neg hicmp, p.ports_number]
    change [unmasked p.source _, unmasked p.destination _] = _
    rw [word16At_eq (i := i) (h 0 2), word16At_eq (h 2 2)]
    rfl
  | other protocol data hprotocol =>
    obtain ⟨hicmp, hports⟩ := protocol_other hprotocol
    change transport packet i protocol.toNat = _
    rw [transport, if_neg hicmp, hports]
    rfl

end Segment

/-! ## Packets -/

/-- An IPv4 packet.  The length of its options is a number of words, and the header with them
has at most fifteen. -/
structure Ipv4Packet where
  tos : UInt8
  totalLength : UInt16
  identification : UInt16
  /-- The flags and the offset of a fragment. -/
  fragment : UInt16
  timeToLive : UInt8
  checksum : UInt16
  source : UInt32
  destination : UInt32
  options : Bytes
  segment : Segment
  options_mod : options.length % 4 = 0 := by decide
  options_le : options.length ≤ 40 := by decide

namespace Ipv4Packet

/-- The number of words of the header. -/
def headerWords (p : Ipv4Packet) : Nat := 5 + p.options.length / 4

/-- The part of the header that every packet has. -/
def fixedHeader (p : Ipv4Packet) : Bytes :=
  [UInt8.ofNat (4 * 16 + p.headerWords), p.tos] ++ Bytes.ofUInt16 p.totalLength ++
    Bytes.ofUInt16 p.identification ++ Bytes.ofUInt16 p.fragment ++
    [p.timeToLive, p.segment.protocol] ++ Bytes.ofUInt16 p.checksum ++ Bytes.ofUInt32 p.source ++
    Bytes.ofUInt32 p.destination

/-- The wire form. -/
def toBytes (p : Ipv4Packet) : Bytes := p.fixedHeader ++ p.options ++ p.segment.toBytes

/-- The fields: the six upper bits of the type of service, the protocol, the addresses, and what the
protocol adds. -/
def contents (p : Ipv4Packet) : List OxmField.Content :=
  [unmasked .ipDscp (.u8 (p.tos / 4)), unmasked .ipProto (.u8 p.segment.protocol),
   unmasked .ipv4Src (.u32 p.source), unmasked .ipv4Dst (.u32 p.destination)] ++
    p.segment.contents

variable (p : Ipv4Packet)

theorem length_header : (p.fixedHeader ++ p.options).length = 20 + p.options.length :=
  List.length_append

/-- The header ends behind the options. -/
theorem headerEnd_toBytes : headerEnd p.toBytes = 20 + p.options.length := by
  have hmod := p.options_mod
  have hle := p.options_le
  have hfirst : byteAt p.toBytes 0 = UInt8.ofNat (4 * 16 + p.headerWords) := byteAt_eq rfl
  have hlt : 4 * 16 + p.headerWords < 256 := by
    unfold headerWords
    omega
  rw [headerEnd, hfirst, UInt8.toNat_ofNat_of_lt' hlt]
  unfold headerWords
  omega

theorem protocol_toBytes : byteAt p.toBytes 9 = p.segment.protocol := byteAt_eq rfl

/-- A packet is as long as it needs to be. -/
theorem neededIpv4_le : neededIpv4 p.toBytes ≤ p.toBytes.length := by
  have hlen : p.toBytes.length = 20 + p.options.length + p.segment.toBytes.length := by
    rw [toBytes, List.length_append, length_header]
  have hsegment := p.segment.transportSize_le
  rw [neededIpv4, protocol_toBytes, headerEnd_toBytes, hlen]
  split <;> omega

/-- The fields of a packet are told from their places. -/
theorem contentsIpv4_toBytes : contentsIpv4 p.toBytes = p.contents := by
  have hsegment : transport p.toBytes (20 + p.options.length) p.segment.protocol.toNat =
      p.segment.contents :=
    p.segment.transport_eq (place_append_right p.length_header)
  rw [contentsIpv4, protocol_toBytes, headerEnd_toBytes, hsegment, byteAt_eq (b := p.tos) rfl,
    word32At_eq (w := p.source) rfl, word32At_eq (w := p.destination) rfl]
  rfl

end Ipv4Packet

/-! ## Frames -/

/-- **The match of a frame around an IPv4 packet** has the fields of the header of the frame, and
those of the packet, with the values that were written, without masks and in this order.  Around a
packet of any other type, but for ARP, it has the fields of the header only. -/
theorem Match.ofFrame_ipv4 (inPort : UInt32) (h : EthernetHeader) :
    (∀ p : Ipv4Packet, ∃ m : Match,
      ofFrame (h.frame etherTypeIpv4 p.toBytes) inPort = .ok m ∧
        m.fields.map OxmField.content = h.contents inPort etherTypeIpv4 ++ p.contents) ∧
    ∀ (etherType : UInt16) (packet : Bytes), h.Holds etherType → etherType ≠ etherTypeIpv4 →
      etherType ≠ etherTypeArp → ∃ m : Match,
        ofFrame (h.frame etherType packet) inPort = .ok m ∧
          m.fields.map OxmField.content = h.contents inPort etherType := by
  constructor
  · intro p
    have hholds : h.Holds etherTypeIpv4 := fun _ => by decide
    have hneeded := p.neededIpv4_le
    rw [← neededPacket_ipv4] at hneeded
    obtain ⟨m, hm, hfields⟩ := h.exists_ofFrame p.toBytes inPort hholds hneeded
    exact ⟨m, hm, by rw [hfields, contentsPacket_ipv4, p.contentsIpv4_toBytes]⟩
  · intro etherType packet hholds hipv4 harp
    obtain ⟨hneeded, hcontents⟩ := packet_of_ne hipv4 harp packet
    obtain ⟨m, hm, hfields⟩ := h.exists_ofFrame packet inPort hholds (by omega)
    exact ⟨m, hm, by rw [hfields, hcontents, List.append_nil]⟩

/-- A UDP datagram in a packet with eight bytes of options. -/
def datagram : Ipv4Packet where
  tos := 0xb8
  totalLength := 36
  identification := 1
  fragment := 0
  timeToLive := 64
  checksum := 0
  source := 0x0a000001
  destination := 0x0a000002
  options := [1, 1, 1, 1, 1, 1, 1, 0]
  segment := .ports .udp 53 5000 [0, 8, 0, 0]

/-- The datagram behind a VLAN tag, and a frame without a tag around another packet. -/
theorem Match.ofFrame_ipv4_datagram :
    (∃ m : Match,
      ofFrame ([0x00, 0x11, 0x22, 0x33, 0x44, 0x55, 0x66, 0x77, 0x88, 0x99, 0xaa, 0xbb, 0x81, 0,
        0xa0, 0x64, 8, 0, 0x47, 0xb8, 0, 36, 0, 1, 0, 0, 64, 17, 0, 0, 10, 0, 0, 1, 10, 0, 0, 2,
        1, 1, 1, 1, 1, 1, 1, 0, 0, 53, 0x13, 0x88, 0, 8, 0, 0]) 2 = .ok m ∧
      m.fields.map OxmField.content =
        [(FieldType.inPort.descriptor, .u32 2, none),
         (FieldType.ethDst.descriptor, .bytes [0x00, 0x11, 0x22, 0x33, 0x44, 0x55], none),
         (FieldType.ethSrc.descriptor, .bytes [0x66, 0x77, 0x88, 0x99, 0xaa, 0xbb], none),
         (FieldType.ethType.descriptor, .u16 0x8100, none),
         (FieldType.vlanVid.descriptor, .u16 100, none),
         (FieldType.vlanPcp.descriptor, .u8 5, none),
         (FieldType.ipDscp.descriptor, .u8 46, none),
         (FieldType.ipProto.descriptor, .u8 17, none),
         (FieldType.ipv4Src.descriptor, .u32 0x0a000001, none),
         (FieldType.ipv4Dst.descriptor, .u32 0x0a000002, none),
         (FieldType.udpSrc.descriptor, .u16 53, none),
         (FieldType.udpDst.descriptor, .u16 5000, none)]) ∧
    ∃ m : Match,
      ofFrame ([0x00, 0x11, 0x22, 0x33, 0x44, 0x55, 0x66, 0x77, 0x88, 0x99, 0xaa, 0xbb, 0x86, 0xdd,
        0x60, 0, 0, 0]) 3 = .ok m ∧
      m.fields.map OxmField.content =
        [(FieldType.inPort.descriptor, .u32 3, none),
         (FieldType.ethDst.descriptor, .bytes [0x00, 0x11, 0x22, 0x33, 0x44, 0x55], none),
         (FieldType.ethSrc.descriptor, .bytes [0x66, 0x77, 0x88, 0x99, 0xaa, 0xbb], none),
         (FieldType.ethType.descriptor, .u16 0x86dd, none)] :=
  ⟨(ofFrame_ipv4 2 (someHeader (some 0xa064))).1 datagram,
    (ofFrame_ipv4 3 (someHeader none)).2 0x86dd [0x60, 0, 0, 0] (fun _ => by decide) (by decide)
      (by decide)⟩

end OpenFlow
