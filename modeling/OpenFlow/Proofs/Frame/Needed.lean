import Mathlib.Data.List.Infix
import OpenFlow.Match.Frame
import OpenFlow.Proofs.Match.FixedLayout

/-!
# How much of a frame is read

How long a frame has to be for its match is said by the frame itself: by its type, by the tag in
front of it, by the length of the header and the protocol of an IPv4 packet, and by the kind of
addresses of an ARP packet.  `Match.Frame.needed` is this length, and `Match.Frame.contents` are
the fields of the match, each told from its place in the frame.

| bytes        | field                                    | looked at                          |
|--------------|------------------------------------------|------------------------------------|
| 0–13         | Ethernet addresses and type              | always                             |
| 14–17        | VLAN tag and the type behind it          | if the type is that of a tag       |
| 0–19         | type of service, protocol, addresses     | in an IPv4 packet                  |
| 4 h – 4 h + 3 | ports, or two bytes of ICMP             | for ICMP, TCP, UDP and SCTP        |
| 0–7          | kind of addresses, operation             | in an ARP packet                   |
| 14–17, 24–27 | addresses                                | if they are those of IPv4          |

The places of a packet count from its own start, and `h` is the number of words that its
header declares.  This number is taken as it stands, also where it is below the five words that
every header has: then the ports are looked for inside of the header.

Bytes that are missing read as less than what stands there, and so they may well be mistaken for a
type or a protocol.  This does no harm: whatever they are taken for, a frame that lacks them
lacks bytes that are needed.

Main definitions:

* `Match.Frame.contents`, `Match.Frame.needed`: the fields of a frame, and the length that it needs.
* `Match.Frame.Sets`: readers that look at so many bytes, and set these fields.

Main statements:

* `Match.Frame.sets_read`: reading looks at the bytes that are needed, and sets these fields.
* `Match.ofFrame_eq_ok_iff`: a frame has a match if it is as long as it needs to be; otherwise it is
  cut short, and what follows it never matters.
-/

namespace OpenFlow
namespace Match
namespace Frame

open FixedLayout (place ports length_place portFields?_ofNat width_portFields)

/-! ## The places -/

/-- The byte at a place. -/
def byteAt (bs : Bytes) (i : Nat) : UInt8 := UInt8.ofNat (Bytes.value (place bs i 1))

/-- The 16-bit word at a place. -/
def word16At (bs : Bytes) (i : Nat) : UInt16 := UInt16.ofNat (Bytes.value (place bs i 2))

/-- The 32-bit word at a place. -/
def word32At (bs : Bytes) (i : Nat) : UInt32 := UInt32.ofNat (Bytes.value (place bs i 4))

/-- A field without a mask. -/
def unmasked (t : FieldType) (value : OxmValue) : OxmField.Content := (t.descriptor, value, none)

/-! ## IPv4 -/

/-- Where the header of an IPv4 packet ends, as it declares. -/
def headerEnd (packet : Bytes) : Nat := 4 * ((byteAt packet 0).toNat % 16)

/-- How many bytes behind the header are looked at, by protocol. -/
def transportSize : Nat → Nat
  | 1 => 2
  | 6 | 17 | 132 => 4
  | _ => 0

/-- The fields behind the header, by protocol. -/
def transport (packet : Bytes) (i protocol : Nat) : List OxmField.Content :=
  if protocol = 1 then
    [unmasked .icmpv4Type (.u8 (byteAt packet i)),
     unmasked .icmpv4Code (.u8 (byteAt packet (i + 1)))]
  else
    match ports protocol with
    | some (source, destination) =>
      [unmasked source (.u16 (word16At packet i)),
       unmasked destination (.u16 (word16At packet (i + 2)))]
    | none => []

/-- The length that an IPv4 packet needs. -/
def neededIpv4 (packet : Bytes) : Nat :=
  match transportSize (byteAt packet 9).toNat with
  | 0 => 20
  | n => max 20 (headerEnd packet + n)

/-- The fields of an IPv4 packet. -/
def contentsIpv4 (packet : Bytes) : List OxmField.Content :=
  [unmasked .ipDscp (.u8 (byteAt packet 1 / 4)),
   unmasked .ipProto (.u8 (byteAt packet 9)),
   unmasked .ipv4Src (.u32 (word32At packet 12)),
   unmasked .ipv4Dst (.u32 (word32At packet 16))] ++
    transport packet (headerEnd packet) (byteAt packet 9).toNat

/-! ## ARP -/

/-- Whether the addresses of an ARP packet are those of IPv4. -/
def hasIpv4Addresses (packet : Bytes) : Bool :=
  word16At packet 2 == 0x0800 && byteAt packet 5 == 4

/-- The length that an ARP packet needs. -/
def neededArp (packet : Bytes) : Nat := if hasIpv4Addresses packet then 28 else 8

/-- The fields of an ARP packet.  Of its operation the low byte is kept. -/
def contentsArp (packet : Bytes) : List OxmField.Content :=
  unmasked .arpOp (.u16 (word16At packet 6 % 256)) ::
    if hasIpv4Addresses packet then
      [unmasked .arpSpa (.u32 (word32At packet 14)), unmasked .arpTpa (.u32 (word32At packet 24))]
    else []

/-! ## Frames -/

/-- The length that a packet of an Ethernet type needs. -/
def neededPacket (etherType : UInt16) (packet : Bytes) : Nat :=
  if etherType = 0x0800 then neededIpv4 packet
  else if etherType = 0x0806 then neededArp packet
  else 0

/-- The fields of a packet of an Ethernet type. -/
def contentsPacket (etherType : UInt16) (packet : Bytes) : List OxmField.Content :=
  if etherType = 0x0800 then contentsIpv4 packet
  else if etherType = 0x0806 then contentsArp packet
  else []

@[simp] theorem neededPacket_ipv4 (packet : Bytes) :
    neededPacket etherTypeIpv4 packet = neededIpv4 packet := if_pos rfl

@[simp] theorem contentsPacket_ipv4 (packet : Bytes) :
    contentsPacket etherTypeIpv4 packet = contentsIpv4 packet := if_pos rfl

@[simp] theorem neededPacket_arp (packet : Bytes) :
    neededPacket etherTypeArp packet = neededArp packet :=
  (if_neg (by decide)).trans (if_pos rfl)

@[simp] theorem contentsPacket_arp (packet : Bytes) :
    contentsPacket etherTypeArp packet = contentsArp packet :=
  (if_neg (by decide)).trans (if_pos rfl)

/-- Of a packet of any other type nothing is read. -/
theorem packet_of_ne {etherType : UInt16} (hipv4 : etherType ≠ etherTypeIpv4)
    (harp : etherType ≠ etherTypeArp) (packet : Bytes) :
    neededPacket etherType packet = 0 ∧ contentsPacket etherType packet = [] :=
  ⟨(if_neg hipv4).trans (if_neg harp), (if_neg hipv4).trans (if_neg harp)⟩

/-- Whether a frame has a VLAN tag. -/
def isTagged (frame : Bytes) : Bool := word16At frame 12 == 0x8100

/-- Where the packet in a frame starts. -/
def packetStart (frame : Bytes) : Nat := if isTagged frame then 18 else 14

/-- The Ethernet type of the packet in a frame, which stands just before it. -/
def packetType (frame : Bytes) : UInt16 := word16At frame (packetStart frame - 2)

/-- The fields of a VLAN tag: twelve bits for the VLAN, and three in front for the priority. -/
def contentsTag (tag : UInt16) : List OxmField.Content :=
  [unmasked .vlanVid (.u16 (tag % 4096)), unmasked .vlanPcp (.u8 (tag / 8192).toUInt8)]

/-- The length that a frame needs. -/
def needed (frame : Bytes) : Nat :=
  packetStart frame + neededPacket (packetType frame) (frame.drop (packetStart frame))

/-- The fields of a frame that came in by a port, in order. -/
def contents (inPort : UInt32) (frame : Bytes) : List OxmField.Content :=
  [unmasked .inPort (.u32 inPort), unmasked .ethDst (.bytes (place frame 0 6)),
   unmasked .ethSrc (.bytes (place frame 6 6)), unmasked .ethType (.u16 (word16At frame 12))] ++
    (if isTagged frame then contentsTag (word16At frame 14) else []) ++
    contentsPacket (packetType frame) (frame.drop (packetStart frame))

/-! ## Reading them -/

/-- From one place of a string of bytes on, a reader looks at the first `n` of them.  If they are
there, it sets these fields in a match, in this order and whatever follows the bytes;
otherwise the input ends too early.  The reader may go back to places that it tells from the
cursor in front of the bytes. -/
structure Sets (bs : Bytes) (i : Nat) (m : Match) (r : Cursor → Reader Match) (n : Nat)
    (xs : List OxmField.Content) : Prop where
  run_of_le : n ≤ bs.length → ∃ fs : List OxmField, fs.map OxmField.content = xs ∧
    ∀ c : Cursor, bs <+: c.rest → ∃ c', (r c).run (c.advance i) = ⟨.ok (m.setAll fs), c', 0⟩
  run_of_lt : bs.length < n → ∀ c : Cursor, c.rest = bs →
    ∃ c', (r c).run (c.advance i) = ⟨.error (.truncatedInput .bytes), c', 0⟩

namespace Sets

variable {bs : Bytes} {i j k n : Nat} {m : Match} {r : Cursor → Reader Match}
  {xs : List OxmField.Content}

protected theorem pure (hn : n ≤ bs.length) : Sets bs i m (fun _ => pure m) n [] where
  run_of_le _ := ⟨[], rfl, fun c _ => ⟨c.advance i, rfl⟩⟩
  run_of_lt h := absurd hn (Nat.not_le.mpr h)

/-- A word is read from its place. -/
theorem word {β : Type} {g : Bytes → β} {f : Cursor → β → Reader Match} (hk : 0 < k)
    (hn : i + k ≤ n)
    (h : i + k ≤ bs.length → Sets bs (i + k) m (fun c => f c (g (place bs i k))) n xs) :
    Sets bs i m (fun c => (Reader.bytes k >>= fun x => pure (g x)) >>= f c) n xs where
  run_of_le hle := by
    have hik : i + k ≤ bs.length := Nat.le_trans hn hle
    obtain ⟨fs, hfs, hrun⟩ := (h hik).run_of_le hle
    refine ⟨fs, hfs, fun c hc => ?_⟩
    have hplace : (c.advance i).rest.take k = place bs i k := by
      obtain ⟨tail, htail⟩ := hc
      have hkd : k ≤ (bs.drop i).length := by
        rw [List.length_drop]
        omega
      rw [Cursor.rest_advance, ← htail, List.drop_append_of_le_length (by omega),
        List.take_append_of_le_length hkd, place]
    have hremaining : k ≤ (c.advance i).remaining := by
      have hlen := hc.length_le
      rw [← Cursor.length_rest_eq_remaining, Cursor.rest_advance, List.length_drop]
      omega
    obtain ⟨c', hrest⟩ := hrun c hc
    refine ⟨c', ?_⟩
    rw [Reader.run_bind_of_quiet (Reader.run_word_of_le g hremaining), hplace,
      Cursor.advance_advance]
    exact hrest
  run_of_lt hlt c hc := by
    by_cases hik : i + k ≤ bs.length
    · obtain ⟨c', hrest⟩ := (h hik).run_of_lt hlt c hc
      have hremaining : k ≤ (c.advance i).remaining := by
        rw [← Cursor.length_rest_eq_remaining, Cursor.rest_advance, hc, List.length_drop]
        omega
      refine ⟨c', ?_⟩
      rw [Reader.run_bind_of_quiet (Reader.run_word_of_le g hremaining), Cursor.advance_advance,
        Cursor.rest_advance, hc]
      exact hrest
    · have hremaining : (c.advance i).remaining < k := by
        rw [← Cursor.length_rest_eq_remaining, Cursor.rest_advance, hc, List.length_drop]
        omega
      refine ⟨c.advance i, ?_⟩
      unfold Reader.bytes
      simp only [bind_assoc]
      exact Reader.run_bind_of_error (Reader.run_exactly_of_lt hremaining)

/-- So is a string of bytes. -/
theorem bytes {f : Cursor → Bytes → Reader Match} (hk : 0 < k) (hn : i + k ≤ n)
    (h : i + k ≤ bs.length → Sets bs (i + k) m (fun c => f c (place bs i k)) n xs) :
    Sets bs i m (fun c => Reader.bytes k >>= f c) n xs := by
  rw [← bind_pure (Reader.bytes k)]
  exact word (g := fun x => x) hk hn h

/-- A value that has the width of its field is set, and comes first. -/
theorem put {t : FieldType} {value : OxmValue} {next : Cursor → Match → Reader Match}
    (hvalue : value.fits t.descriptor.width.toNat = true)
    (h : ∀ m, Sets bs i m (fun c => next c m) n xs) :
    Sets bs i m (fun c => Frame.put m t value >>= next c) n (unmasked t value :: xs) := by
  have hput : ∃ f : OxmField, f.content = unmasked t value ∧
      ∀ c, (Frame.put m t value).run c = ⟨.ok (m.set f), c, 0⟩ := by
    refine ⟨⟨t.descriptor, value, none, hvalue, rfl⟩, rfl, fun c => ?_⟩
    unfold Frame.put setExact
    rw [OxmField.exact_of_fits hvalue]
    rfl
  obtain ⟨f, hf, hput⟩ := hput
  constructor
  · intro hle
    obtain ⟨fs, hfs, hrun⟩ := (h (m.set f)).run_of_le hle
    refine ⟨f :: fs, by rw [List.map_cons, hf, hfs], fun c hc => ?_⟩
    rw [Reader.run_bind_of_quiet (hput _)]
    exact hrun c hc
  · intro hlt c hc
    rw [Reader.run_bind_of_quiet (hput _)]
    exact (h (m.set f)).run_of_lt hlt c hc

/-- A value that is set last. -/
theorem put_last {t : FieldType} {value : OxmValue} (hn : n ≤ bs.length)
    (hvalue : value.fits t.descriptor.width.toNat = true) :
    Sets bs i m (fun _ => Frame.put m t value) n [unmasked t value] := by
  rw [← bind_pure (Frame.put m t value)]
  exact put hvalue fun m => .pure hn

/-- Readers that go on in the same way set the same fields. -/
theorem of_run_eq {r' : Cursor → Reader Match} (h : Sets bs j m r n xs)
    (hrun : ∀ c, (r' c).run (c.advance i) = (r c).run (c.advance j)) : Sets bs i m r' n xs where
  run_of_le hle := by
    obtain ⟨fs, hfs, hfull⟩ := h.run_of_le hle
    exact ⟨fs, hfs, fun c hc => hrun c ▸ hfull c hc⟩
  run_of_lt hlt c hc := hrun c ▸ h.run_of_lt hlt c hc

/-- A reader goes to another place. -/
theorem moveTo {d : Cursor → Cursor} (hd : ∀ c, d c = c.advance j) (h : Sets bs j m r n xs) :
    Sets bs i m (fun c => Reader.moveTo (d c) >>= fun _ => r c) n xs := by
  have hmove (c : Cursor) : (Reader.moveTo (d c)).run (c.advance i) = ⟨.ok (), c.advance j, 0⟩ :=
    congrArg (Outcome.mk (.ok ()) · 0) (hd c)
  exact h.of_run_eq fun c => Reader.run_bind_of_quiet (hmove c)

/-- A reader looks where it stands. -/
theorem cursor {f : Cursor → Cursor → Reader Match}
    (h : Sets bs i m (fun c => f c (c.advance i)) n xs) :
    Sets bs i m (fun c => Reader.cursor >>= f c) n xs :=
  h.of_run_eq fun _ => Reader.run_cursor_bind ..

/-- A reader of the bytes behind a place, which starts there. -/
theorem behind {r : Reader Match} (hi : i ≤ bs.length)
    (h : Sets (bs.drop i) 0 m (fun _ => r) n xs) : Sets bs i m (fun _ => r) (i + n) xs := by
  have hlen : (bs.drop i).length = bs.length - i := List.length_drop
  constructor
  · intro hle
    obtain ⟨fs, hfs, hrun⟩ := h.run_of_le (by omega)
    refine ⟨fs, hfs, fun c hc => ?_⟩
    have hrest := hrun (c.advance i) (List.IsPrefix.drop hc i)
    rwa [Cursor.advance_zero] at hrest
  · intro hlt c hc
    have hrest := h.run_of_lt (by omega) (c.advance i) (by rw [Cursor.rest_advance, hc])
    rwa [Cursor.advance_zero] at hrest

end Sets

section Readers

variable {bs : Bytes} {m : Match}

/-! ### The transport layer -/

theorem transportSize_of_ports {protocol : Nat} {fields : FieldType × FieldType}
    (h : ports protocol = some fields) : transportSize protocol = 4 := by
  unfold ports at h
  split at h
  case h_4 => cases h
  all_goals rfl

theorem transportSize_of_ports_eq_none {protocol : Nat} (hicmp : protocol ≠ 1)
    (h : ports protocol = none) : transportSize protocol = 0 := by
  unfold ports at h
  split at h
  case h_4 htcp hudp hsctp =>
    unfold transportSize
    split <;> simp_all
  all_goals cases h

/-- The fields behind the header of an IPv4 packet. -/
theorem sets_readTransport {i n : Nat} {protocol : UInt8} (hlen : 20 ≤ bs.length)
    (hn : n = match transportSize protocol.toNat with
      | 0 => 20
      | k => max 20 (i + k)) :
    Sets bs i m (fun _ => readTransport m protocol) n (transport bs i protocol.toNat) := by
  unfold readTransport transport
  by_cases hicmp : protocol = protocolIcmp
  · subst hicmp
    have hn' : n = max 20 (i + 2) := hn
    rw [if_pos rfl, if_pos (by decide)]
    refine .word (by decide) (by omega) fun _ => .put rfl fun m => ?_
    exact .word (by decide) (by omega) fun _ => .put_last (by omega) rfl
  · have hone : protocol.toNat ≠ 1 := fun h => hicmp (UInt8.toNat_inj.mp h)
    have hports : portFields? protocol = ports protocol.toNat := by
      rw [← portFields?_ofNat protocol.toNat_lt, UInt8.ofNat_toNat]
    rw [if_neg hicmp, if_neg hone, hports]
    cases h : ports protocol.toNat with
    | none =>
      rw [transportSize_of_ports_eq_none hone h] at hn
      exact .pure (hn ▸ hlen)
    | some fields =>
      obtain ⟨source, destination⟩ := fields
      rw [transportSize_of_ports h] at hn
      have hn' : n = max 20 (i + 4) := hn
      obtain ⟨hsource, hdestination⟩ := width_portFields (hports.trans h)
      have hfits {t : FieldType} (hwidth : t.descriptor.width = 2) (x : UInt16) :
          (OxmValue.u16 x).fits t.descriptor.width.toNat = true := by
        rw [hwidth]
        rfl
      refine .word (by decide) (by omega) fun _ => .put (hfits hsource _) fun m => ?_
      exact .word (by decide) (by omega) fun _ => .put_last (by omega) (hfits hdestination _)

/-! ### Packets -/

/-- The upper bits of a number of so many bits, by a mask that has them all. -/
theorem and_mask_shiftRight {n mask k s : Nat} (hmask : mask >>> s = 2 ^ k - 1)
    (hn : n < 2 ^ (s + k)) : (n &&& mask) >>> s = n / 2 ^ s := by
  have hlt : n / 2 ^ s < 2 ^ k := Nat.div_lt_of_lt_mul (Nat.pow_add 2 s k ▸ hn)
  rw [Nat.shiftRight_and_distrib, hmask, Nat.shiftRight_eq_div_pow,
    Nat.and_two_pow_sub_one_eq_mod, Nat.mod_eq_of_lt hlt]

theorem and_fifteen (b : UInt8) : (b &&& 0x0f).toNat = b.toNat % 16 := by
  rw [UInt8.toNat_and]
  exact Nat.and_two_pow_sub_one_eq_mod b.toNat 4

/-- The six bits in front. -/
theorem upper_six_bits (b : UInt8) : (b &&& 0xfc) >>> 2 = b / 4 := by
  rw [← UInt8.toNat_inj, UInt8.toNat_shiftRight, UInt8.toNat_and, UInt8.toNat_div]
  exact and_mask_shiftRight (k := 6) (s := 2) rfl b.toNat_lt

theorem le_neededIpv4 (packet : Bytes) : 20 ≤ neededIpv4 packet := by
  unfold neededIpv4
  split <;> omega

/-- An IPv4 packet. -/
theorem sets_readIpv4 :
    Sets bs 0 m (fun _ => readIpv4 m) (neededIpv4 bs) (contentsIpv4 bs) := by
  have hneeded := le_neededIpv4 bs
  have hend : 4 * (byteAt bs 0 &&& 0x0f).toNat = headerEnd bs := by
    rw [and_fifteen, headerEnd]
  unfold readIpv4 contentsIpv4
  simp only [List.cons_append, List.nil_append]
  refine .cursor ?_
  simp only [Cursor.advance_zero]
  refine .word (by decide) (by omega) fun _ => .word (by decide) (by omega) fun _ => ?_
  rw [upper_six_bits]
  refine .put rfl fun m => .moveTo (fun _ => rfl) ?_
  refine .word (by decide) (by omega) fun _ => .put rfl fun m => .moveTo (fun _ => rfl) ?_
  refine .word (by decide) (by omega) fun _ => .put rfl fun m => ?_
  refine .word (by decide) (by omega) fun _ => .put rfl fun m => ?_
  exact .moveTo (fun c => congrArg c.advance hend) (sets_readTransport (by omega) rfl)

theorem and_low_byte (w : UInt16) : w &&& 0xff = w % 256 := by
  rw [← UInt16.toNat_inj, UInt16.toNat_and, UInt16.toNat_mod]
  exact Nat.and_two_pow_sub_one_eq_mod w.toNat 8

/-- An ARP packet. -/
theorem sets_readArp : Sets bs 0 m (fun _ => readArp m) (neededArp bs) (contentsArp bs) := by
  have hneeded : 8 ≤ neededArp bs := by
    unfold neededArp
    split <;> omega
  unfold readArp contentsArp
  refine .cursor ?_
  simp only [Cursor.advance_zero]
  refine .moveTo (fun _ => rfl) (.word (by decide) (by omega) fun _ => ?_)
  rw [and_low_byte]
  refine .put rfl fun m => .moveTo (fun _ => rfl) (.word (by decide) (by omega) fun _ => ?_)
  refine .moveTo (fun _ => rfl) (.word (by decide) (by omega) fun _ => ?_)
  change Sets bs 6 m (fun c => if hasIpv4Addresses bs then _ else pure m) (neededArp bs) _
  by_cases haddresses : hasIpv4Addresses bs = true
  · have hneeded : neededArp bs = 28 := if_pos haddresses
    simp only [if_pos haddresses]
    refine .moveTo (fun _ => rfl) (.word (by decide) (by omega) fun _ => .put rfl fun m => ?_)
    exact .moveTo (fun _ => rfl) (.word (by decide) (by omega) fun _ => .put_last (by omega) rfl)
  · have hneeded : neededArp bs = 8 := if_neg haddresses
    simp only [if_neg haddresses]
    exact .pure (by omega)

/-- The packet of a frame, by its type. -/
theorem sets_readPayload (etherType : UInt16) :
    Sets bs 0 m (fun _ => readPayload m etherType) (neededPacket etherType bs)
      (contentsPacket etherType bs) := by
  unfold readPayload
  by_cases hipv4 : etherType = etherTypeIpv4
  · subst hipv4
    simp only [if_true, neededPacket_ipv4, contentsPacket_ipv4]
    exact sets_readIpv4
  by_cases harp : etherType = etherTypeArp
  · subst harp
    simp only [if_neg hipv4, if_true, neededPacket_arp, contentsPacket_arp]
    exact sets_readArp
  · obtain ⟨hneeded, hcontents⟩ := packet_of_ne hipv4 harp bs
    simp only [if_neg hipv4, if_neg harp, hneeded, hcontents]
    exact .pure (Nat.zero_le _)

/-! ### Frames -/

theorem low_twelve_bits (w : UInt16) : w &&& 0xfff = w % 4096 := by
  rw [← UInt16.toNat_inj, UInt16.toNat_and, UInt16.toNat_mod]
  exact Nat.and_two_pow_sub_one_eq_mod w.toNat 12

theorem upper_three_bits (w : UInt16) : (w &&& 0xe000) >>> 13 = w / 8192 := by
  rw [← UInt16.toNat_inj, UInt16.toNat_shiftRight, UInt16.toNat_and, UInt16.toNat_div]
  exact and_mask_shiftRight (k := 3) (s := 13) rfl w.toNat_lt

theorem fits_ethernet {t : FieldType} {address : Bytes} (hwidth : t.descriptor.width = 6)
    (h : address.length = 6) : (OxmValue.bytes address).fits t.descriptor.width.toNat = true := by
  rw [hwidth, OxmValue.fits, h]
  rfl

/-- **Reading a frame** looks at the bytes that are needed, and sets the fields of the frame. -/
theorem sets_read (inPort : UInt32) (frame : Bytes) :
    Sets frame 0 .all (fun _ => read inPort) (needed frame) (contents inPort frame) := by
  have hneeded : packetStart frame ≤ needed frame := Nat.le_add_right _ _
  have hstart : 14 ≤ packetStart frame := by
    unfold packetStart
    split <;> omega
  have hpacket (h : packetStart frame ≤ frame.length) (m : Match) :
      Sets frame (packetStart frame) m (fun _ => readPayload m (packetType frame)) (needed frame)
        (contentsPacket (packetType frame) (frame.drop (packetStart frame))) :=
    .behind h (sets_readPayload _)
  unfold read contents
  simp only [List.cons_append, List.nil_append]
  refine .put rfl fun m => ?_
  refine .bytes (by decide) (by omega) fun h => ?_
  refine .put (fits_ethernet rfl (length_place h)) fun m => ?_
  refine .bytes (by decide) (by omega) fun h => ?_
  refine .put (fits_ethernet rfl (length_place h)) fun m => ?_
  refine .word (by decide) (by omega) fun h => .put rfl fun m => ?_
  change Sets frame 14 m (fun _ => if word16At frame 12 = 0x8100 then _ else _) (needed frame) _
  by_cases htag : isTagged frame = true
  · have hpacketStart : packetStart frame = 18 := if_pos htag
    have hpacketType : packetType frame = word16At frame 16 := by rw [packetType, hpacketStart]
    rw [hpacketStart, hpacketType] at hpacket
    simp only [if_pos htag, if_pos (beq_iff_eq.mp htag), contentsTag, List.cons_append,
      List.nil_append, hpacketStart, hpacketType]
    refine .word (by decide) (by omega) fun _ => ?_
    rw [low_twelve_bits, upper_three_bits]
    refine .put rfl fun m => .put rfl fun m => ?_
    exact .word (by decide) (by omega) fun h => hpacket h m
  · have hpacketStart : packetStart frame = 14 := if_neg htag
    have hpacketType : packetType frame = word16At frame 12 := by rw [packetType, hpacketStart]
    rw [hpacketStart, hpacketType] at hpacket
    simp only [if_neg htag, if_neg (mt beq_iff_eq.mpr htag), List.nil_append, hpacketStart,
      hpacketType]
    exact hpacket h m

end Readers

/-! ## No type twice -/

/-- The types of the fields that a frame may have behind the header of an IPv4 packet. -/
def transportTypes : List FieldType :=
  [.icmpv4Type, .icmpv4Code, .tcpSrc, .tcpDst, .udpSrc, .udpDst, .sctpSrc, .sctpDst]

theorem sublist_transport (packet : Bytes) (i protocol : Nat) :
    ((transport packet i protocol).map OxmField.Content.key).Sublist
      (transportTypes.map (·.descriptor.key)) := by
  unfold transport
  split
  · have hsublist : [FieldType.icmpv4Type, .icmpv4Code].Sublist transportTypes := by decide
    exact hsublist.map (·.descriptor.key)
  · unfold ports
    split
    case h_1 source destination hports =>
      have hsublist : [source, destination].Sublist transportTypes := by
        split at hports <;> cases hports <;> decide
      exact hsublist.map (·.descriptor.key)
    case h_2 => exact List.nil_sublist _

/-- The types of the fields of a packet. -/
def packetTypes : List FieldType :=
  [.ipDscp, .ipProto, .ipv4Src, .ipv4Dst] ++ transportTypes ++ [.arpOp, .arpSpa, .arpTpa]

theorem sublist_contentsPacket (etherType : UInt16) (packet : Bytes) :
    ((contentsPacket etherType packet).map OxmField.Content.key).Sublist
      (packetTypes.map (·.descriptor.key)) := by
  unfold contentsPacket packetTypes
  simp only [List.map_append]
  split
  · unfold contentsIpv4
    rw [List.map_append]
    exact ((List.Sublist.refl _).append (sublist_transport ..)).trans (List.sublist_append_left _ _)
  split
  · refine List.Sublist.trans ?_ (List.sublist_append_right _ _)
    unfold contentsArp
    split
    · exact .refl _
    · exact List.Sublist.cons_cons _ (List.nil_sublist _)
  · exact List.nil_sublist _

/-- The types of the fields of a frame. -/
def types : List FieldType :=
  [.inPort, .ethDst, .ethSrc, .ethType] ++ [.vlanVid, .vlanPcp] ++ packetTypes

/-- **No type of field is in a frame twice.** -/
theorem nodup_contents (inPort : UInt32) (frame : Bytes) :
    ((contents inPort frame).map OxmField.Content.key).Nodup := by
  have hsublist : ((contents inPort frame).map OxmField.Content.key).Sublist
      (types.map (·.descriptor.key)) := by
    unfold contents types
    simp only [List.map_append]
    refine ((List.Sublist.refl _).append ?_).append (sublist_contentsPacket _ _)
    split
    · exact .refl _
    · exact List.nil_sublist _
  exact hsublist.nodup (by decide)

end Frame

/-! ## The match -/

/-- **A frame that is long enough has the fields on its list**, whatever follows it. -/
theorem exists_ofFrame (inPort : UInt32) {frame : Bytes} (h : Frame.needed frame ≤ frame.length) :
    ∃ m : Match, m.fields.map OxmField.content = Frame.contents inPort frame ∧
      ∀ rest : Bytes, ofFrame (frame ++ rest) inPort = .ok m := by
  obtain ⟨fs, hfs, hrun⟩ := (Frame.sets_read inPort frame).run_of_le h
  have hfields := fields_ofFields_of_content hfs (Frame.nodup_contents inPort frame)
  refine ⟨ofFields fs, by rw [hfields, hfs], fun rest => ?_⟩
  obtain ⟨c', hread⟩ := hrun (Cursor.start (frame ++ rest)) (List.prefix_append frame rest)
  rw [Cursor.advance_zero] at hread
  exact congrArg Outcome.result hread

/-- A frame that is shorter is cut short. -/
theorem ofFrame_of_lt (inPort : UInt32) {frame : Bytes} (h : frame.length < Frame.needed frame) :
    ofFrame frame inPort = .error (.truncatedInput .bytes) := by
  obtain ⟨c', hread⟩ := (Frame.sets_read inPort frame).run_of_lt h (Cursor.start frame) rfl
  rw [Cursor.advance_zero] at hread
  exact congrArg Outcome.result hread

/-- **A frame has a match if it is as long as it needs to be.**  A shorter one is cut short, and
this is all that can be wrong with it.  Where there is a match, any bytes may follow the frame, and
the match stays the same. -/
theorem ofFrame_eq_ok_iff (inPort : UInt32) (frame : Bytes) :
    ((∃ m, ofFrame frame inPort = .ok m) ↔ Frame.needed frame ≤ frame.length) ∧
      (∀ e, ofFrame frame inPort = .error e → e = .truncatedInput .bytes) ∧
      ∀ m, ofFrame frame inPort = .ok m → ∀ rest, ofFrame (frame ++ rest) inPort = .ok m := by
  by_cases hneeded : Frame.needed frame ≤ frame.length
  · obtain ⟨m, -, hm⟩ := exists_ofFrame inPort hneeded
    have hframe : ofFrame frame inPort = .ok m := by
      rw [← List.append_nil frame]
      exact hm []
    rw [hframe]
    refine ⟨iff_of_true ⟨m, rfl⟩ hneeded, ?_, ?_⟩
    · rintro e ⟨⟩
    · rintro _ ⟨⟩ rest
      exact hm rest
  · rw [ofFrame_of_lt inPort (Nat.lt_of_not_le hneeded)]
    refine ⟨iff_of_false ?_ hneeded, ?_, ?_⟩
    · rintro ⟨m, ⟨⟩⟩
    · rintro e ⟨⟩
      rfl
    · rintro m ⟨⟩

end Match
end OpenFlow
