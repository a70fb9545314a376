import OpenFlow.Proofs.Frame.Needed

/-!
# Ethernet frames

An Ethernet header has two addresses, at most one VLAN tag, and the type of the packet behind it.
`EthernetHeader.frame` writes such a header in front of a packet.  A frame that is written so has
the fields of its header and those of its packet, and it needs the room of the header and that of
the packet; so what is said of packets on their own is said of frames with it.

A type that is that of a tag is taken for one.  So without a tag this type cannot be that of the
packet, and behind a tag it can: then a second tag follows, of which nothing is read.

Main definitions:

* `EthernetHeader`, `EthernetHeader.frame`: a header, and its wire form in front of a packet.
* `EthernetHeader.contents`: the fields of a header.

Main statement:

* `EthernetHeader.exists_ofFrame`: the match of a frame, from the packet in it.
-/

namespace OpenFlow

namespace Match.Frame

open FixedLayout (place)

variable {as bs : Bytes} {i n : Nat}

/-! ## Places in what was written -/

/-- Behind other bytes, a place is so much further back. -/
theorem place_append_right (h : as.length = n) (i k : Nat) :
    place (as ++ bs) (n + i) k = place bs i k := by
  rw [place, place, ← List.drop_drop, List.drop_left' h]

theorem byteAt_eq {b : UInt8} (h : place bs i 1 = [b]) : byteAt bs i = b := by
  rw [byteAt, h]
  simp [Bytes.value]

theorem word16At_eq {w : UInt16} (h : place bs i 2 = Bytes.ofUInt16 w) : word16At bs i = w := by
  rw [word16At, h, Bytes.value_ofUInt16, UInt16.ofNat_toNat]

theorem word32At_eq {w : UInt32} (h : place bs i 4 = Bytes.ofUInt32 w) : word32At bs i = w := by
  rw [word32At, h, Bytes.value_ofUInt32, UInt32.ofNat_toNat]

end Match.Frame

/-! ## Headers -/

/-- What an Ethernet frame has in front of its packet, but for the type of the packet. -/
structure EthernetHeader where
  destination : Bytes
  source : Bytes
  /-- The VLAN tag: the priority in three bits, one more bit, and the VLAN in twelve. -/
  tag : Option UInt16
  length_destination : destination.length = 6 := by decide
  length_source : source.length = 6 := by decide

namespace EthernetHeader

open Match.Frame Match.FixedLayout

/-- A VLAN tag, with its own type in front of it. -/
def tagBytes : Option UInt16 → Bytes
  | none => []
  | some tag => Bytes.ofUInt16 etherTypeVlan ++ Bytes.ofUInt16 tag

/-- The wire form of a frame with this header, around a packet of an Ethernet type. -/
def frame (h : EthernetHeader) (etherType : UInt16) (packet : Bytes) : Bytes :=
  h.destination ++ h.source ++ (tagBytes h.tag ++ Bytes.ofUInt16 etherType ++ packet)

/-- The number of bytes in front of the packet. -/
def size (h : EthernetHeader) : Nat := 14 + (tagBytes h.tag).length

/-- The type right behind the addresses, which is that of the tag if there is one. -/
def outerType (h : EthernetHeader) (etherType : UInt16) : UInt16 :=
  match h.tag with
  | none => etherType
  | some _ => etherTypeVlan

/-- The fields of a header in front of a packet of an Ethernet type, in a frame that came in by a
port. -/
def contents (h : EthernetHeader) (inPort : UInt32) (etherType : UInt16) : List OxmField.Content :=
  [unmasked .inPort (.u32 inPort), unmasked .ethDst (.bytes h.destination),
   unmasked .ethSrc (.bytes h.source), unmasked .ethType (.u16 (h.outerType etherType))] ++
    match h.tag with
    | none => []
    | some tag => contentsTag tag

/-- A type of packet that is not mistaken for a tag: any behind a tag, and else any but that of a
tag. -/
def Holds (h : EthernetHeader) (etherType : UInt16) : Prop :=
  h.tag = none → etherType ≠ etherTypeVlan

variable (h : EthernetHeader) (etherType : UInt16) (packet : Bytes)

theorem length_addresses : (h.destination ++ h.source).length = 12 := by
  rw [List.length_append, h.length_destination, h.length_source]

theorem length_frame : (h.frame etherType packet).length = h.size + packet.length := by
  unfold frame size
  rw [List.length_append, length_addresses]
  simp only [List.length_append, Bytes.length_ofUInt16]
  omega

/-- The packet is all that is behind the header. -/
theorem drop_frame : (h.frame etherType packet).drop h.size = packet := by
  have hlen : (h.destination ++ h.source ++ (tagBytes h.tag ++ Bytes.ofUInt16 etherType)).length =
      h.size := by
    unfold size
    rw [List.length_append, length_addresses]
    simp only [List.length_append, Bytes.length_ofUInt16]
    omega
  unfold frame
  rw [← List.append_assoc, List.drop_left' hlen]

theorem place_frame (i k : Nat) : place (h.frame etherType packet) (12 + i) k =
    place (tagBytes h.tag ++ Bytes.ofUInt16 etherType ++ packet) i k :=
  place_append_right h.length_addresses i k

theorem place_destination : place (h.frame etherType packet) 0 6 = h.destination := by
  unfold frame
  rw [place, List.drop_zero, List.append_assoc, List.take_left' h.length_destination]

theorem place_source : place (h.frame etherType packet) 6 6 = h.source := by
  unfold frame
  rw [place, List.append_assoc, List.drop_left' h.length_destination,
    List.take_left' h.length_source]

/-- The places of a frame with a tag. -/
theorem places_of_tagged {tag : UInt16} (htag : h.tag = some tag) :
    isTagged (h.frame etherType packet) = true ∧
      word16At (h.frame etherType packet) 12 = etherTypeVlan ∧
      word16At (h.frame etherType packet) 14 = tag ∧
      word16At (h.frame etherType packet) 16 = etherType := by
  have hword (i : Nat) {w : UInt16}
      (hplace : place (tagBytes (some tag) ++ Bytes.ofUInt16 etherType ++ packet) i 2 =
        Bytes.ofUInt16 w) : word16At (h.frame etherType packet) (12 + i) = w := by
    refine word16At_eq ((h.place_frame etherType packet i 2).trans ?_)
    rw [htag, hplace]
  have htype : word16At (h.frame etherType packet) 12 = etherTypeVlan := hword 0 rfl
  refine ⟨?_, htype, hword 2 rfl, hword 4 rfl⟩
  rw [isTagged, htype]
  rfl

variable {etherType}

/-- The places of a frame without a tag. -/
theorem places_of_untagged (htag : h.tag = none) (hholds : h.Holds etherType) :
    isTagged (h.frame etherType packet) = false ∧
      word16At (h.frame etherType packet) 12 = etherType := by
  have hword : word16At (h.frame etherType packet) 12 = etherType := by
    refine word16At_eq ((h.place_frame etherType packet 0 2).trans ?_)
    rw [htag]
    rfl
  refine ⟨?_, hword⟩
  rw [isTagged, hword]
  exact beq_eq_false_iff_ne.mpr (hholds htag)

/-- Where the packet of a frame starts, and what it is. -/
theorem packet_frame (hholds : h.Holds etherType) :
    packetStart (h.frame etherType packet) = h.size ∧
      packetType (h.frame etherType packet) = etherType := by
  unfold packetType packetStart size
  cases htag : h.tag with
  | none =>
    obtain ⟨htagged, htype⟩ := h.places_of_untagged packet htag hholds
    rw [htagged]
    exact ⟨rfl, htype⟩
  | some tag =>
    obtain ⟨htagged, -, -, htype⟩ := h.places_of_tagged etherType packet htag
    rw [htagged]
    exact ⟨rfl, htype⟩

/-- A frame needs its header, and what its packet needs. -/
theorem needed_frame (hholds : h.Holds etherType) :
    needed (h.frame etherType packet) = h.size + neededPacket etherType packet := by
  obtain ⟨hstart, htype⟩ := h.packet_frame packet hholds
  rw [needed, hstart, htype, drop_frame]

/-- A frame has the fields of its header, and those of its packet. -/
theorem contents_frame (inPort : UInt32) (hholds : h.Holds etherType) :
    Match.Frame.contents inPort (h.frame etherType packet) =
      h.contents inPort etherType ++ contentsPacket etherType packet := by
  obtain ⟨hstart, htype⟩ := h.packet_frame packet hholds
  unfold Match.Frame.contents contents outerType
  rw [hstart, htype, drop_frame, place_destination, place_source]
  cases htag : h.tag with
  | none =>
    obtain ⟨htagged, htype⟩ := h.places_of_untagged packet htag hholds
    rw [htagged, htype]
    rfl
  | some tag =>
    obtain ⟨htagged, htype, htci, -⟩ := h.places_of_tagged etherType packet htag
    rw [htagged, htype, htci]
    rfl

/-- **The match of a frame**, if the packet in it is as long as it needs to be: the fields of the
header, and those of the packet. -/
theorem exists_ofFrame (inPort : UInt32) (hholds : h.Holds etherType)
    (hneeded : neededPacket etherType packet ≤ packet.length) :
    ∃ m : Match, Match.ofFrame (h.frame etherType packet) inPort = .ok m ∧
      m.fields.map OxmField.content =
        h.contents inPort etherType ++ contentsPacket etherType packet := by
  have hframe : needed (h.frame etherType packet) ≤ (h.frame etherType packet).length := by
    rw [h.needed_frame packet hholds, length_frame]
    exact Nat.add_le_add_left hneeded _
  obtain ⟨m, hfields, hm⟩ := Match.exists_ofFrame inPort hframe
  refine ⟨m, ?_, by rw [hfields, h.contents_frame packet inPort hholds]⟩
  rw [← List.append_nil (h.frame etherType packet)]
  exact hm []

end EthernetHeader

/-- The header of a frame from one station to another, with any tag or none. -/
def someHeader (tag : Option UInt16) : EthernetHeader where
  destination := [0x00, 0x11, 0x22, 0x33, 0x44, 0x55]
  source := [0x66, 0x77, 0x88, 0x99, 0xaa, 0xbb]
  tag := tag

end OpenFlow
