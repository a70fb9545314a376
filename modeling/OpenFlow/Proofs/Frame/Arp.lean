import OpenFlow.Proofs.Frame.Ethernet

/-!
# ARP packets in Ethernet frames

An ARP packet over Ethernet has four addresses in places of a fixed width: six bytes for each
address of the hardware, and four for each of the protocol.  Its header gives the kinds and the
lengths of both in numbers of their own, which may be any.  The match takes the addresses of the
protocol if the header says that they are those of IPv4.

The operation is a word of 16 bits, and so is its field.  But of the word only the low byte gets
into the field, so a packet need not meet the match that is made of it, and packets of different
operations can have one match.  Both happen exactly for the operations above 255.

Main definitions:

* `ArpPacket`, `ArpPacket.toBytes`: an ARP packet and its wire form.
* `ArpPacket.MatchedInFull`: the match of a frame has the operation as it is.

Main statements:

* `Match.ofFrame_arp_iff`: the match of a frame around an ARP packet, and when it has the
  operation as it is.
* `Match.not_matchedInFull_arpProbe`: a packet of which it does not.
-/

namespace OpenFlow

open Match.Frame
open Match.FixedLayout (place)

/-- An ARP packet over Ethernet. -/
structure ArpPacket where
  hardwareType : UInt16
  protocolType : UInt16
  hardwareLength : UInt8
  protocolLength : UInt8
  operation : UInt16
  senderHardware : Bytes
  sender : UInt32
  targetHardware : Bytes
  target : UInt32
  length_senderHardware : senderHardware.length = 6 := by decide
  length_targetHardware : targetHardware.length = 6 := by decide

namespace ArpPacket

/-- The header, with the operation at its end. -/
def header (a : ArpPacket) : Bytes :=
  Bytes.ofUInt16 a.hardwareType ++ Bytes.ofUInt16 a.protocolType ++
    [a.hardwareLength, a.protocolLength] ++ Bytes.ofUInt16 a.operation

/-- The wire form, which has 28 bytes. -/
def toBytes (a : ArpPacket) : Bytes :=
  a.header ++ a.senderHardware ++ Bytes.ofUInt32 a.sender ++ a.targetHardware ++
    Bytes.ofUInt32 a.target

/-- Whether the addresses of the protocol are those of IPv4, as the header says. -/
def IsIpv4 (a : ArpPacket) : Prop := a.protocolType = 0x0800 ∧ a.protocolLength = 4

instance (a : ArpPacket) : Decidable a.IsIpv4 := inferInstanceAs (Decidable (_ ∧ _))

/-- The fields of the addresses, if they are those of IPv4. -/
def addresses (a : ArpPacket) : List OxmField.Content :=
  if a.IsIpv4 then [unmasked .arpSpa (.u32 a.sender), unmasked .arpTpa (.u32 a.target)] else []

/-- The match of a frame around a packet, with any bytes behind it, has the fields of the header of
the frame, the operation of the packet, and its addresses if they are those of IPv4. -/
def MatchedInFull (a : ArpPacket) (inPort : UInt32) (h : EthernetHeader) (rest : Bytes) : Prop :=
  ∃ m : Match, Match.ofFrame (h.frame etherTypeArp (a.toBytes ++ rest)) inPort = .ok m ∧
    m.fields.map OxmField.content =
      h.contents inPort etherTypeArp ++ unmasked .arpOp (.u16 a.operation) :: a.addresses

variable (a : ArpPacket) (rest : Bytes)

/-! ## Places -/

theorem length_toBytes : a.toBytes.length = 28 := by
  have hsender := a.length_senderHardware
  have htarget := a.length_targetHardware
  unfold toBytes
  simp only [List.length_append, Bytes.length_ofUInt32, hsender, htarget]
  rfl

theorem operation_toBytes : word16At (a.toBytes ++ rest) 6 = a.operation := word16At_eq rfl

theorem hasIpv4Addresses_toBytes : hasIpv4Addresses (a.toBytes ++ rest) = decide a.IsIpv4 := by
  have hprotocol : word16At (a.toBytes ++ rest) 2 = a.protocolType := word16At_eq rfl
  have hlength : byteAt (a.toBytes ++ rest) 5 = a.protocolLength := byteAt_eq rfl
  rw [hasIpv4Addresses, hprotocol, hlength]
  exact (Bool.decide_and _ _).symm

theorem sender_toBytes : word32At (a.toBytes ++ rest) 14 = a.sender := by
  have hsplit : a.toBytes ++ rest = a.header ++ a.senderHardware ++
      (Bytes.ofUInt32 a.sender ++ (a.targetHardware ++ Bytes.ofUInt32 a.target ++ rest)) := by
    simp only [toBytes, List.append_assoc]
  have hlen : (a.header ++ a.senderHardware).length = 14 := by
    rw [List.length_append, a.length_senderHardware]
    rfl
  rw [hsplit]
  exact word32At_eq (place_append_right hlen 0 4)

theorem target_toBytes : word32At (a.toBytes ++ rest) 24 = a.target := by
  have hsplit : a.toBytes ++ rest =
      a.header ++ a.senderHardware ++ Bytes.ofUInt32 a.sender ++ a.targetHardware ++
        (Bytes.ofUInt32 a.target ++ rest) := by
    simp only [toBytes, List.append_assoc]
  have hlen : (a.header ++ a.senderHardware ++ Bytes.ofUInt32 a.sender ++
      a.targetHardware).length = 24 := by
    simp only [List.length_append, Bytes.length_ofUInt32, a.length_senderHardware,
      a.length_targetHardware]
    rfl
  rw [hsplit]
  exact word32At_eq (place_append_right hlen 0 4)

/-- A packet is as long as it needs to be. -/
theorem neededArp_le : neededArp (a.toBytes ++ rest) ≤ (a.toBytes ++ rest).length := by
  rw [List.length_append, length_toBytes]
  unfold neededArp
  split <;> omega

/-- The fields of a packet are told from their places. -/
theorem contentsArp_toBytes : contentsArp (a.toBytes ++ rest) =
    unmasked .arpOp (.u16 (a.operation % 256)) :: a.addresses := by
  rw [contentsArp, operation_toBytes, hasIpv4Addresses_toBytes, sender_toBytes, target_toBytes,
    addresses]
  simp only [decide_eq_true_eq]

/-! ## Frames -/

/-- The match of a frame around a packet. -/
theorem exists_ofFrame (inPort : UInt32) (h : EthernetHeader) :
    ∃ m : Match, Match.ofFrame (h.frame etherTypeArp (a.toBytes ++ rest)) inPort = .ok m ∧
      m.fields.map OxmField.content = h.contents inPort etherTypeArp ++
        unmasked .arpOp (.u16 (a.operation % 256)) :: a.addresses := by
  have hholds : h.Holds etherTypeArp := fun _ => by decide
  have hneeded := a.neededArp_le rest
  rw [← neededPacket_arp] at hneeded
  obtain ⟨m, hm, hfields⟩ := h.exists_ofFrame (a.toBytes ++ rest) inPort hholds hneeded
  exact ⟨m, hm, by rw [hfields, contentsPacket_arp, contentsArp_toBytes]⟩

/-- Fields that are the same have the same operation in front. -/
theorem operation_cons_inj {x y : UInt16} {xs ys : List OxmField.Content} :
    unmasked .arpOp (.u16 x) :: xs = unmasked .arpOp (.u16 y) :: ys ↔ x = y ∧ xs = ys := by
  simp only [unmasked, List.cons.injEq, Prod.mk.injEq, OxmValue.u16.injEq, true_and, and_true]

/-- The low byte is all of an operation if it is below 256. -/
theorem matchedInFull_iff (inPort : UInt32) (h : EthernetHeader) :
    a.MatchedInFull inPort h rest ↔ a.operation.toNat < 256 := by
  obtain ⟨m, hm, hfields⟩ := a.exists_ofFrame rest inPort h
  have hmod : a.operation % 256 = a.operation ↔ a.operation.toNat < 256 := by
    rw [← UInt16.toNat_inj, UInt16.toNat_mod]
    exact Nat.mod_eq_iff_lt (by decide)
  rw [← hmod]
  constructor
  · rintro ⟨m', hm', hfields'⟩
    obtain rfl : m = m' := Except.ok.inj (hm.symm.trans hm')
    have hcons := List.append_cancel_left (hfields.symm.trans hfields')
    exact (operation_cons_inj.mp hcons).1
  · intro hop
    exact ⟨m, hm, by rw [hfields, hop]⟩

/-- Frames have one match if the fields of their packets are the same. -/
theorem ofFrame_eq_ofFrame_iff (inPort : UInt32) (h : EthernetHeader) (a' : ArpPacket)
    (rest' : Bytes) :
    Match.ofFrame (h.frame etherTypeArp (a.toBytes ++ rest)) inPort =
        Match.ofFrame (h.frame etherTypeArp (a'.toBytes ++ rest')) inPort ↔
      a.operation % 256 = a'.operation % 256 ∧ a.addresses = a'.addresses := by
  obtain ⟨m, hm, hfields⟩ := a.exists_ofFrame rest inPort h
  obtain ⟨m', hm', hfields'⟩ := a'.exists_ofFrame rest' inPort h
  rw [hm, hm', ← operation_cons_inj]
  constructor
  · rintro ⟨⟩
    exact List.append_cancel_left (hfields.symm.trans hfields')
  · intro hsame
    have hmap : m.fields.map OxmField.content = m'.fields.map OxmField.content := by
      rw [hfields, hfields', hsame]
    rw [← Match.ofFields_fields m, ← Match.ofFields_fields m',
      OxmField.content_injective.list_map hmap]

end ArpPacket

/-- **The match of a frame around an ARP packet** has the fields of the header of the frame, the low
byte of the operation, and the addresses if they are those of IPv4, and no other field.  So the
operation is in it as it is exactly if it is below 256; and packets have one match exactly if
the low bytes of their operations are the same, and their addresses. -/
theorem Match.ofFrame_arp_iff (inPort : UInt32) (h : EthernetHeader) (a : ArpPacket)
    (rest : Bytes) :
    (∃ m : Match, ofFrame (h.frame etherTypeArp (a.toBytes ++ rest)) inPort = .ok m ∧
      m.fields.map OxmField.content = h.contents inPort etherTypeArp ++
        unmasked .arpOp (.u16 (a.operation % 256)) :: a.addresses) ∧
    (a.MatchedInFull inPort h rest ↔ a.operation.toNat < 256) ∧
    ∀ (a' : ArpPacket) (rest' : Bytes),
      (ofFrame (h.frame etherTypeArp (a.toBytes ++ rest)) inPort =
        ofFrame (h.frame etherTypeArp (a'.toBytes ++ rest')) inPort ↔
          a.operation % 256 = a'.operation % 256 ∧ a.addresses = a'.addresses) :=
  ⟨a.exists_ofFrame rest inPort h, a.matchedInFull_iff rest inPort h,
    a.ofFrame_eq_ofFrame_iff rest inPort h⟩

/-- A packet from the station that sends the frame, about the addresses 192.168.0.1 and
192.168.0.2, with any operation. -/
def arpProbe (operation : UInt16) : ArpPacket where
  hardwareType := 1
  protocolType := 0x0800
  hardwareLength := 6
  protocolLength := 4
  operation := operation
  senderHardware := (someHeader none).source
  sender := 0xc0a80001
  targetHardware := Bytes.zeros 6
  target := 0xc0a80002
  length_senderHardware := (someHeader none).length_source

/-- The match of a packet with operation 257 has operation 1, and is that of a request. -/
theorem Match.not_matchedInFull_arpProbe :
    (ofFrame ((someHeader none).frame etherTypeArp (arpProbe 257).toBytes) 3).map
        (·.value? FieldType.arpOp.descriptor) = .ok (some (.u16 1)) ∧
      ofFrame ((someHeader none).frame etherTypeArp (arpProbe 257).toBytes) 3 =
        ofFrame ((someHeader none).frame etherTypeArp (arpProbe 1).toBytes) 3 ∧
      ¬ (arpProbe 257).MatchedInFull 3 (someHeader none) [] := by
  have hsame := (arpProbe 257).ofFrame_eq_ofFrame_iff [] 3 (someHeader none) (arpProbe 1) []
  simp only [List.append_nil] at hsame
  refine ⟨by with_unfolding_all rfl, hsame.mpr ⟨by decide, rfl⟩, ?_⟩
  rw [ArpPacket.matchedInFull_iff]
  decide

end OpenFlow
