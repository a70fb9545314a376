import Mathlib.Data.List.Induction
import Mathlib.Data.Nat.Bitwise
import OpenFlow.Proofs.Match.Errors
import OpenFlow.Proofs.Match.Setting

/-!
# What a match of the fixed layout stands for

The fixed layout has a place for every field, and what a match of this layout stands for can be
told from its bytes by their places, without going through them.  `Match.FixedLayout.contents` is
this list: each field with its type, its value and its mask, in the order of the layout.

| bytes  | field                | on the list                                |
|--------|----------------------|--------------------------------------------|
| 4–7    | ingress port         | bit 0 of the wildcards is clear            |
| 8–11   | wildcards            |                                            |
| 12–35  | Ethernet addresses   | always, with masks                         |
| 36–37  | VLAN identifier      | bit 1 is clear                             |
| 38     | VLAN priority        | bit 2 is clear                             |
| 40–41  | Ethernet type        | bit 3 is clear                             |
| 42     | type of service      | bit 4 is clear                             |
| 43     | IP protocol          | bit 5 is clear                             |
| 44–59  | IPv4 addresses       | each unless it is zero, with masks         |
| 60–63  | ports                | bits 6 and 7 are clear                     |
| 64–67  | MPLS label           | bit 8 is clear                             |
| 68     | MPLS traffic class   | bit 9 is clear                             |
| 72–87  | metadata             | always, with a mask                        |

What lies behind the Ethernet type is on the list only for the types of IPv4, ARP and VLAN frames,
and what lies behind the addresses only for the protocols TCP, UDP and SCTP; a type or a protocol
that is not matched on counts as none of these.  A mask is on the list only if it is all zero.

Reading goes along the bytes, and a field that is set could stand in for another one.  It never
does, since no type of field is on the list twice.

Main definitions:

* `Match.FixedLayout.contents`: the fields that 88 bytes stand for.
* `Match.FixedLayout.Lays`: readers that set the fields of the layout from some place on.

Main statements:

* `Match.FixedLayout.lays_readBody`: reading sets the fields on the list.
* `Match.FixedLayout.nodup_contents`: no type of field is on the list twice.
* `Match.read_fixedLayout`: a match of the fixed layout is read as the fields that it stands for.
-/

namespace OpenFlow

/-! ## Numbers and values -/

namespace Bytes

/-- A string of bytes spells zero if they are all zero. -/
theorem value_eq_zero_iff (bs : Bytes) : value bs = 0 ↔ bs.all (· == 0) = true := by
  induction bs using List.reverseRecOn with
  | nil => simp
  | append_singleton bs b ih =>
    have hb : b.toNat = 0 ↔ b = 0 := UInt8.toNat_inj (b := 0)
    rw [value_concat, Nat.add_eq_zero_iff, Nat.mul_eq_zero, ih, hb]
    simp

end Bytes

namespace OxmValue

variable {bs : Bytes}

theorem ofBytes_of_length_eq_one (h : bs.length = 1) :
    ofBytes bs = .u8 (UInt8.ofNat (Bytes.value bs)) := by
  simp [ofBytes, h]

theorem ofBytes_of_length_eq_two (h : bs.length = 2) :
    ofBytes bs = .u16 (UInt16.ofNat (Bytes.value bs)) := by
  simp [ofBytes, h]

theorem ofBytes_of_length_eq_four (h : bs.length = 4) :
    ofBytes bs = .u32 (UInt32.ofNat (Bytes.value bs)) := by
  simp [ofBytes, h]

theorem ofBytes_of_length_eq_six (h : bs.length = 6) : ofBytes bs = .bytes bs := by
  simp [ofBytes, h]

theorem ofBytes_of_length_eq_eight (h : bs.length = 8) :
    ofBytes bs = .u64 (UInt64.ofNat (Bytes.value bs)) := by
  simp [ofBytes, h]

/-- A value is zero if its bytes are. -/
theorem isZero_ofBytes (bs : Bytes) : (ofBytes bs).isZero = bs.all (· == 0) := by
  have hlt := Bytes.value_lt bs
  rw [Bool.eq_iff_iff, ← Bytes.value_eq_zero_iff]
  unfold ofBytes
  split
  case h_1 hlen =>
    rw [hlen] at hlt
    change (UInt8.ofNat (Bytes.value bs) == 0) = true ↔ _
    rw [beq_iff_eq, ← UInt8.toNat_inj, UInt8.toNat_ofNat_of_lt' hlt]
    rfl
  case h_2 hlen =>
    rw [hlen] at hlt
    change (UInt16.ofNat (Bytes.value bs) == 0) = true ↔ _
    rw [beq_iff_eq, ← UInt16.toNat_inj, UInt16.toNat_ofNat_of_lt' hlt]
    rfl
  case h_3 hlen =>
    rw [hlen] at hlt
    change (UInt32.ofNat (Bytes.value bs) == 0) = true ↔ _
    rw [beq_iff_eq, ← UInt32.toNat_inj, UInt32.toNat_ofNat_of_lt' hlt]
    rfl
  case h_4 hlen =>
    rw [hlen] at hlt
    change (UInt64.ofNat (Bytes.value bs) == 0) = true ↔ _
    rw [beq_iff_eq, ← UInt64.toNat_inj, UInt64.toNat_ofNat_of_lt' hlt]
    rfl
  case h_5 => exact (Bytes.value_eq_zero_iff bs).symm

end OxmValue

/-- The type of a field, its value and its mask. -/
abbrev OxmField.Content : Type := FieldDescriptor × OxmValue × Option OxmValue

/-- All that a field holds. -/
def OxmField.content (f : OxmField) : OxmField.Content := (f.descriptor, f.value, f.mask)

theorem OxmField.content_injective : Function.Injective OxmField.content := by
  rintro ⟨d, value, mask, hvalue, hmask⟩ ⟨d', value', mask', hvalue', hmask'⟩ h
  cases h
  rfl

/-- The type of what a field holds. -/
def OxmField.Content.key (x : OxmField.Content) : UInt16 × UInt8 := x.1.key

/-- Fields of which no two hold the same type make up a match as they came. -/
theorem Match.fields_ofFields_of_content {fs : List OxmField} {xs : List OxmField.Content}
    (hfs : fs.map OxmField.content = xs) (hnodup : (xs.map OxmField.Content.key).Nodup) :
    (ofFields fs).fields = fs := by
  refine fields_ofFields ?_
  rwa [← hfs, List.map_map] at hnodup

namespace Match

namespace FixedLayout

/-! ## The places -/

/-- The bytes of a place in the layout. -/
def place (bs : Bytes) (i n : Nat) : Bytes := (bs.drop i).take n

/-- Whether a bit of the wildcards is clear. -/
def isClear (bs : Bytes) (bit : Nat) : Bool := !(Bytes.value (place bs 8 4)).testBit bit

/-- The value of a field at a place. -/
def valueAt (bs : Bytes) (t : FieldType) (i : Nat) : OxmValue :=
  .ofBytes (place bs i t.descriptor.width.toNat)

/-- A field that is on the list if a bit of the wildcards is clear. -/
def unlessWild (bs : Bytes) (bit : Nat) (t : FieldType) (i : Nat) : List OxmField.Content :=
  if isClear bs bit then [(t.descriptor, valueAt bs t i, none)] else []

/-- A field whose mask follows its value.  The mask is on the list if it is all zero. -/
def inverse (bs : Bytes) (t : FieldType) (i : Nat) : List OxmField.Content :=
  let mask := place bs (i + t.descriptor.width.toNat) t.descriptor.width.toNat
  [(t.descriptor, valueAt bs t i, if mask.all (· == 0) then some (.ofBytes mask) else none)]

/-- A field whose mask follows its value, and that is on the list unless its value is zero. -/
def unlessZero (bs : Bytes) (t : FieldType) (i : Nat) : List OxmField.Content :=
  if (place bs i t.descriptor.width.toNat).all (· == 0) then [] else inverse bs t i

/-- The fields of the source and destination ports of TCP, UDP and SCTP. -/
def ports : Nat → Option (FieldType × FieldType)
  | 6 => some (.tcpSrc, .tcpDst)
  | 17 => some (.udpSrc, .udpDst)
  | 132 => some (.sctpSrc, .sctpDst)
  | _ => none

/-- The ports of a protocol and all that follows them. -/
def transport (bs : Bytes) (source destination : FieldType) : List OxmField.Content :=
  unlessWild bs 6 source 60 ++ unlessWild bs 7 destination 62 ++ unlessWild bs 8 .mplsLabel 64 ++
    unlessWild bs 9 .mplsTc 68 ++ inverse bs .metadata 72

/-- The fields of the network layer and all that follows them. -/
def network (bs : Bytes) : List OxmField.Content :=
  unlessWild bs 4 .ipDscp 42 ++ unlessWild bs 5 .ipProto 43 ++ unlessZero bs .ipv4Src 44 ++
    unlessZero bs .ipv4Dst 52 ++
    if isClear bs 5 then
      match ports (Bytes.value (place bs 43 1)) with
      | some (source, destination) => transport bs source destination
      | none => []
    else []

/-- The fields that the bytes of a match of the fixed layout stand for, in order. -/
def contents (bs : Bytes) : List OxmField.Content :=
  unlessWild bs 0 .inPort 4 ++ inverse bs .ethSrc 12 ++ inverse bs .ethDst 24 ++
    unlessWild bs 1 .vlanVid 36 ++ unlessWild bs 2 .vlanPcp 38 ++ unlessWild bs 3 .ethType 40 ++
    if isClear bs 3 && Bytes.value (place bs 40 2) ∈ [0x0800, 0x0806, 0x8100] then network bs
    else []

/-! ## Reading them -/

variable {bs : Bytes} {i n : Nat}

theorem length_place (h : i + n ≤ bs.length) : (place bs i n).length = n := by
  rw [place, List.length_take, List.length_drop]
  omega

/-- The value at a place has the width of its field. -/
theorem fits_valueAt {t : FieldType} (h : i + t.descriptor.width.toNat ≤ bs.length) :
    (valueAt bs t i).fits t.descriptor.width.toNat = true := by
  have hfits := OxmValue.fits_ofBytes (place bs i t.descriptor.width.toNat)
  rwa [length_place h] at hfits

/-- A cursor in front of the bytes of the layout from one place on. -/
def Stands (bs : Bytes) (i : Nat) (c : Cursor) : Prop :=
  c.rest.take (bs.length - i) = bs.drop i

namespace Stands

variable {c : Cursor}

theorem le_remaining (h : Stands bs i c) (hn : i + n ≤ bs.length) : n ≤ c.remaining := by
  have hlen := congrArg List.length h
  rw [List.length_take, List.length_drop, Cursor.length_rest_eq_remaining] at hlen
  omega

theorem take_rest (h : Stands bs i c) (hn : i + n ≤ bs.length) :
    c.rest.take n = place bs i n := by
  rw [place, ← h, List.take_take, Nat.min_eq_left (by omega)]

theorem advance (h : Stands bs i c) (n : Nat) : Stands bs (i + n) (c.advance n) := by
  unfold Stands at h ⊢
  rw [← List.drop_drop, ← h, Cursor.rest_advance, List.drop_take, Nat.sub_add_eq]

/-- A word of the layout is read from its place. -/
theorem run_word {β : Type} {g : Bytes → β} (h : Stands bs i c) (hn : i + n ≤ bs.length) :
    (Reader.bytes n >>= fun x => pure (g x)).run c =
      ⟨.ok (g (place bs i n)), c.advance n, 0⟩ := by
  rw [Reader.run_word_of_le g (h.le_remaining hn), h.take_rest hn]

end Stands

/-- From one place in the layout on, a reader sets these fields in a match, in this order. -/
def Lays (bs : Bytes) (i : Nat) (m : Match) (r : Reader Match) (xs : List OxmField.Content) :
    Prop :=
  ∀ c, Stands bs i c → ∃ fs c', fs.map OxmField.content = xs ∧
    r.run c = ⟨.ok (m.setAll fs), c', 0⟩

namespace Lays

variable {m : Match} {xs : List OxmField.Content}

protected theorem pure (m : Match) : Lays bs i m (pure m) [] :=
  fun c _ => ⟨[], c, rfl, rfl⟩

/-- A word is read from its place. -/
theorem word {β : Type} {g : Bytes → β} {f : β → Reader Match} (hn : i + n ≤ bs.length)
    (h : Lays bs (i + n) m (f (g (place bs i n))) xs) :
    Lays bs i m ((Reader.bytes n >>= fun x => pure (g x)) >>= f) xs := by
  intro c hc
  obtain ⟨fs, c', hfs, hrun⟩ := h _ (hc.advance n)
  exact ⟨fs, c', hfs, by rw [Reader.run_bind_of_quiet (hc.run_word hn), hrun]⟩

/-- So is a string of bytes. -/
theorem bytes {f : Bytes → Reader Match} (hn : i + n ≤ bs.length)
    (h : Lays bs (i + n) m (f (place bs i n)) xs) : Lays bs i m (Reader.bytes n >>= f) xs := by
  rw [← bind_pure (Reader.bytes n)]
  exact word (g := fun x => x) hn h

/-- A field that is set comes first on the list. -/
theorem set {f : OxmField} {next : Match → Reader Match}
    (h : Lays bs i (m.set f) (next (m.set f)) xs) :
    Lays bs i m (Reader.lift (.ok (m.set f)) >>= next) (f.content :: xs) := by
  intro c hc
  obtain ⟨fs, c', rfl, hrun⟩ := h c hc
  have hlift : (Reader.lift (.ok (m.set f))).run c = ⟨.ok (m.set f), c, 0⟩ := rfl
  exact ⟨f :: fs, c', rfl, by rw [Reader.run_bind_of_quiet hlift, hrun]; rfl⟩

end Lays

/-! ## One place after the other -/

/-- The wildcards of the layout. -/
def wildcards (bs : Bytes) : UInt32 := UInt32.ofNat (Bytes.value (place bs 8 4))

/-- A flag that is set in the wildcards is a bit of them that is. -/
theorem isExact_wildcards (hbs : 12 ≤ bs.length) {flag : UInt32} {bit : Nat}
    (hflag : flag.toNat = 2 ^ bit) :
    Wildcards.isExact (wildcards bs) flag = isClear bs bit := by
  have hlt := Bytes.value_lt (place bs 8 4)
  rw [length_place hbs] at hlt
  have hword : (wildcards bs).toNat = Bytes.value (place bs 8 4) := UInt32.toNat_ofNat_of_lt' hlt
  rw [Bool.eq_iff_iff, Wildcards.isExact, beq_iff_eq, ← UInt32.toNat_inj, UInt32.toNat_and, hflag,
    hword, Nat.and_two_pow, isClear]
  cases (Bytes.value (place bs 8 4)).testBit bit <;> simp

namespace Lays

variable {m : Match} {xs : List OxmField.Content} {t : FieldType}

/-- A value that is set unless a flag is. -/
theorem setUnlessWild {value : OxmValue} {next : Match → Reader Match} {flag : UInt32}
    {bit j : Nat} (hbs : 12 ≤ bs.length) (hn : i + t.descriptor.width.toNat ≤ bs.length)
    (hflag : flag.toNat = 2 ^ bit) (hvalue : value = valueAt bs t i)
    (h : ∀ m, Lays bs j m (next m) xs) :
    Lays bs j m (FixedLayout.setUnlessWild m (wildcards bs) flag t value >>= next)
      (unlessWild bs bit t i ++ xs) := by
  unfold FixedLayout.setUnlessWild unlessWild
  rw [isExact_wildcards hbs hflag, hvalue]
  split
  · rw [setExact, OxmField.exact_of_fits (fits_valueAt hn)]
    exact .set (h _)
  · rw [pure_bind]
    exact h m

/-- A word that is read, and set unless a flag is. -/
theorem word_setUnlessWild {β : Type} {g : Bytes → β} {k : β → OxmValue}
    {next : β → Match → Reader Match} {flag : UInt32} {bit : Nat}
    (hform : ∀ {b : Bytes}, b.length = n → OxmValue.ofBytes b = k (g b))
    (hwidth : t.descriptor.width.toNat = n) (hflag : flag.toNat = 2 ^ bit)
    (hbs : 12 ≤ bs.length) (hn : i + n ≤ bs.length)
    (h : ∀ m, Lays bs (i + n) m (next (g (place bs i n)) m) xs) :
    Lays bs i m ((Reader.bytes n >>= fun x => pure (g x)) >>= fun v =>
      FixedLayout.setUnlessWild m (wildcards bs) flag t (k v) >>= next v)
      (unlessWild bs bit t i ++ xs) := by
  subst hwidth
  exact .word hn (.setUnlessWild hbs hn hflag (hform (length_place hn)).symm h)

/-- A value and its mask that are set. -/
theorem setInverse {value ignored : OxmValue} {next : Match → Reader Match} {j : Nat}
    (hn : i + 2 * t.descriptor.width.toNat ≤ bs.length) (hmaskable : t.descriptor.maskable = true)
    (hvalue : value = valueAt bs t i)
    (hignored : ignored = valueAt bs t (i + t.descriptor.width.toNat))
    (h : ∀ m, Lays bs j m (next m) xs) :
    Lays bs j m (FixedLayout.setInverse m t value ignored >>= next) (inverse bs t i ++ xs) := by
  have hzero : ignored.isZero =
      (place bs (i + t.descriptor.width.toNat) t.descriptor.width.toNat).all (· == 0) := by
    rw [hignored, valueAt, OxmValue.isZero_ofBytes]
  subst hvalue
  unfold FixedLayout.setInverse inverse
  simp only [hzero]
  split
  · subst hignored
    rw [setMasked, OxmField.masked_of_fits hmaskable (fits_valueAt (by omega)) (fits_valueAt (by omega))]
    exact .set (h _)
  · rw [setExact, OxmField.exact_of_fits (fits_valueAt (by omega))]
    exact .set (h _)

/-- An Ethernet address and its mask. -/
theorem ethernet {next : Match → Reader Match} (hn : i + 12 ≤ bs.length)
    (hwidth : t.descriptor.width = 6) (hmaskable : t.descriptor.maskable = true)
    (h : ∀ m, Lays bs (i + 12) m (next m) xs) :
    Lays bs i m (readEthernet m t >>= next) (inverse bs t i ++ xs) := by
  have hsix : t.descriptor.width.toNat = 6 := congrArg UInt8.toNat hwidth
  unfold readEthernet
  simp only [bind_assoc]
  refine .bytes (by omega) (.bytes (by omega) (.setInverse (by omega) hmaskable ?_ ?_ h))
  · rw [valueAt, hsix, OxmValue.ofBytes_of_length_eq_six (length_place (by omega))]
  · rw [valueAt, hsix, OxmValue.ofBytes_of_length_eq_six (length_place (by omega))]

/-- An IPv4 address and its mask. -/
theorem ipv4 {next : Match → Reader Match} (hn : i + 8 ≤ bs.length)
    (hwidth : t.descriptor.width = 4) (hmaskable : t.descriptor.maskable = true)
    (h : ∀ m, Lays bs (i + 8) m (next m) xs) :
    Lays bs i m (readIpv4 m t >>= next) (unlessZero bs t i ++ xs) := by
  have hfour : t.descriptor.width.toNat = 4 := congrArg UInt8.toNat hwidth
  have hvalue {i' : Nat} (hi : i' + 4 ≤ bs.length) :
      valueAt bs t i' = .u32 (UInt32.ofNat (Bytes.value (place bs i' 4))) := by
    rw [valueAt, hfour, OxmValue.ofBytes_of_length_eq_four (length_place hi)]
  have hzero : UInt32.ofNat (Bytes.value (place bs i 4)) = 0 ↔
      (place bs i 4).all (· == 0) = true := by
    rw [← OxmValue.isZero_ofBytes, OxmValue.ofBytes_of_length_eq_four (length_place (by omega))]
    exact beq_iff_eq.symm
  unfold readIpv4 unlessZero
  simp only [bind_assoc]
  refine .word (by omega) (.word (by omega) ?_)
  rw [hfour]
  by_cases haddress : (place bs i 4).all (· == 0) = true
  · rw [if_pos haddress, if_pos (hzero.mpr haddress), pure_bind]
    exact h m
  · rw [if_neg haddress, if_neg fun hnone => haddress (hzero.mp hnone)]
    refine .setInverse (by omega) hmaskable (hvalue (by omega)).symm ?_ h
    rw [hfour, hvalue (by omega)]

end Lays

/-- The protocols with ports are told by their numbers. -/
theorem portFields?_ofNat {protocol : Nat} (hlt : protocol < 256) :
    portFields? (UInt8.ofNat protocol) = ports protocol := by
  unfold ports
  split
  case h_4 htcp hudp hsctp =>
    have hne (k : UInt8) (hk : protocol ≠ k.toNat) : UInt8.ofNat protocol ≠ k := by
      rintro rfl
      exact hk (UInt8.toNat_ofNat_of_lt' hlt).symm
    rw [portFields?, if_neg (hne protocolTcp htcp), if_neg (hne protocolUdp hudp),
      if_neg (hne protocolSctp hsctp)]
  all_goals rfl

/-- The types of frames with a network layer are those of IPv4, ARP and VLAN frames. -/
theorem hasNetwork_ofNat {etherType : Nat} (hlt : etherType < 65536) :
    hasNetwork (UInt16.ofNat etherType) = decide (etherType ∈ [0x0800, 0x0806, 0x8100]) := by
  have hiff (k : UInt16) : UInt16.ofNat etherType = k ↔ etherType = k.toNat := by
    rw [← UInt16.toNat_inj, UInt16.toNat_ofNat_of_lt' hlt]
  rw [Bool.eq_iff_iff, decide_eq_true_iff]
  simp only [hasNetwork, Bool.or_eq_true, beq_iff_eq, hiff, List.mem_cons, List.not_mem_nil,
    or_false, or_assoc]
  rfl

section Readers

variable {m : Match} (hbs : bs.length = size)

include hbs

/-- The ports of a protocol and all that follows them are read from byte 60 on. -/
theorem lays_readTransport {source destination : FieldType}
    (hsource : source.descriptor.width = 2) (hdestination : destination.descriptor.width = 2) :
    Lays bs 60 m (readTransport m (wildcards bs) source destination)
      (transport bs source destination) := by
  change bs.length = 88 at hbs
  have htwo {t : FieldType} (hwidth : t.descriptor.width = 2) : t.descriptor.width.toNat = 2 :=
    congrArg UInt8.toNat hwidth
  unfold readTransport transport
  simp only [List.append_assoc]
  refine .word_setUnlessWild (k := .u16) OxmValue.ofBytes_of_length_eq_two (htwo hsource) rfl (by omega)
    (by omega) fun m => ?_
  refine .word_setUnlessWild (k := .u16) OxmValue.ofBytes_of_length_eq_two (htwo hdestination) rfl
    (by omega) (by omega) fun m => ?_
  refine .word_setUnlessWild (k := .u32) OxmValue.ofBytes_of_length_eq_four rfl rfl (by omega)
    (by omega) fun m => ?_
  refine .word_setUnlessWild (k := .u8) OxmValue.ofBytes_of_length_eq_one rfl rfl (by omega)
    (by omega) fun m => ?_
  refine .bytes (by omega) (.word (by omega) (.word (by omega) ?_))
  rw [← List.append_nil (inverse bs .metadata 72), ← bind_pure (FixedLayout.setInverse _ _ _ _)]
  refine .setInverse (by change 72 + 2 * 8 ≤ bs.length; omega) rfl ?_ ?_ Lays.pure
  · exact (OxmValue.ofBytes_of_length_eq_eight (length_place (by omega))).symm
  · exact (OxmValue.ofBytes_of_length_eq_eight (length_place (by omega))).symm

/-- The fields of the network layer and all that follows them are read from byte 42 on. -/
theorem lays_readNetwork : Lays bs 42 m (readNetwork m (wildcards bs)) (network bs) := by
  have hlen : bs.length = 88 := hbs
  have hprotocol := Bytes.value_lt (place bs 43 1)
  rw [length_place (by omega)] at hprotocol
  unfold readNetwork network
  simp only [List.append_assoc]
  refine .word_setUnlessWild (k := .u8) OxmValue.ofBytes_of_length_eq_one rfl rfl (by omega)
    (by omega) fun m => ?_
  refine .word_setUnlessWild (k := .u8) OxmValue.ofBytes_of_length_eq_one rfl rfl (by omega)
    (by omega) fun m => ?_
  refine .ipv4 (by omega) rfl rfl fun m => .ipv4 (by omega) rfl rfl fun m => ?_
  rw [isExact_wildcards (by omega) (show Wildcards.protocol.toNat = 2 ^ 5 from rfl),
    portFields?_ofNat hprotocol]
  split
  · cases hports : ports (Bytes.value (place bs 43 1)) with
    | none => exact .pure m
    | some fields =>
      obtain ⟨hsource, hdestination⟩ := width_portFields ((portFields?_ofNat hprotocol).trans hports)
      exact lays_readTransport hbs hsource hdestination
  · exact .pure m

/-- **Reading sets the fields that the bytes stand for**, from behind the header of the match on. -/
theorem lays_readBody : Lays bs 4 .all readBody (contents bs) := by
  have hlen : bs.length = 88 := hbs
  have hetherType := Bytes.value_lt (place bs 40 2)
  rw [length_place (by omega)] at hetherType
  unfold readBody contents
  simp only [List.append_assoc]
  refine .word (by omega) (.word (by omega) ?_)
  refine .setUnlessWild (by omega) (show 4 + 4 ≤ bs.length by omega) rfl ?_ fun m => ?_
  · exact (OxmValue.ofBytes_of_length_eq_four (length_place (by omega))).symm
  refine .ethernet (by omega) rfl rfl fun m => ?_
  refine .ethernet (by omega) rfl rfl fun m => ?_
  refine .word_setUnlessWild (k := .u16) OxmValue.ofBytes_of_length_eq_two rfl rfl (by omega)
    (by omega) fun m => ?_
  refine .word_setUnlessWild (k := .u8) OxmValue.ofBytes_of_length_eq_one rfl rfl (by omega)
    (by omega) fun m => ?_
  refine .word (by omega) ?_
  refine .word_setUnlessWild (k := .u16) OxmValue.ofBytes_of_length_eq_two rfl rfl (by omega)
    (by omega) fun m => ?_
  show Lays bs 42 m (if Wildcards.isExact (wildcards bs) Wildcards.etherType &&
    hasNetwork (UInt16.ofNat (Bytes.value (place bs 40 2))) then readNetwork m (wildcards bs)
    else pure m) _
  rw [isExact_wildcards (by omega) (show Wildcards.etherType.toNat = 2 ^ 3 from rfl),
    hasNetwork_ofNat hetherType]
  split
  · exact lays_readNetwork hbs
  · exact .pure m

end Readers

/-! ## No type twice -/

theorem sublist_unlessWild (bs : Bytes) (bit : Nat) (t : FieldType) (i : Nat) :
    ((unlessWild bs bit t i).map OxmField.Content.key).Sublist [t.descriptor.key] := by
  unfold unlessWild
  split
  · exact .refl _
  · exact List.nil_sublist _

theorem sublist_unlessZero (bs : Bytes) (t : FieldType) (i : Nat) :
    ((unlessZero bs t i).map OxmField.Content.key).Sublist [t.descriptor.key] := by
  unfold unlessZero
  split
  · exact List.nil_sublist _
  · exact .refl _

theorem sublist_transport (bs : Bytes) (source destination : FieldType) :
    ((transport bs source destination).map OxmField.Content.key).Sublist
      ([source, destination, .mplsLabel, .mplsTc, .metadata].map (·.descriptor.key)) := by
  unfold transport
  simp only [List.map_append]
  exact ((((sublist_unlessWild ..).append (sublist_unlessWild ..)).append
    (sublist_unlessWild ..)).append (sublist_unlessWild ..)).append (.refl _)

/-- The types of the fields that may be on the list from the network layer on. -/
def networkTypes : List FieldType :=
  [.ipDscp, .ipProto, .ipv4Src, .ipv4Dst, .tcpSrc, .tcpDst, .udpSrc, .udpDst, .sctpSrc, .sctpDst,
   .mplsLabel, .mplsTc, .metadata]

theorem sublist_network (bs : Bytes) :
    ((network bs).map OxmField.Content.key).Sublist (networkTypes.map (·.descriptor.key)) := by
  unfold network
  simp only [List.map_append]
  refine ((((sublist_unlessWild ..).append (sublist_unlessWild ..)).append
    (sublist_unlessZero ..)).append (sublist_unlessZero ..)).append ?_
  split
  · unfold ports
    split
    case h_1 source destination hports =>
      refine (sublist_transport bs source destination).trans ?_
      split at hports <;> cases hports <;> decide
    case h_2 => exact List.nil_sublist _
  · exact List.nil_sublist _

/-- The types of the fields that may be on the list. -/
def types : List FieldType :=
  [.inPort, .ethSrc, .ethDst, .vlanVid, .vlanPcp, .ethType] ++ networkTypes

/-- **No type of field is on the list twice.** -/
theorem nodup_contents (bs : Bytes) : ((contents bs).map OxmField.Content.key).Nodup := by
  have hsublist : ((contents bs).map OxmField.Content.key).Sublist
      (types.map (·.descriptor.key)) := by
    unfold contents types
    simp only [List.map_append]
    refine ((((((sublist_unlessWild ..).append (.refl _)).append (.refl _)).append
      (sublist_unlessWild ..)).append (sublist_unlessWild ..)).append
      (sublist_unlessWild ..)).append ?_
    split
    · exact sublist_network bs
    · exact List.nil_sublist _
  exact hsublist.nodup (by decide)

end FixedLayout

/-! ## The match -/

/-- The bytes of a match of the fixed layout decide what it is read as. -/
theorem exists_run_read_of_fixed {bs : Bytes} {declared : UInt16}
    (hbs : bs.length = FixedLayout.size)
    (hpeek : Bytes.peekHeader? bs = some (fixedCode, declared))
    (hdeclared : FixedLayout.size ≤ declared.toNat) :
    ∃ m : Match, m.fields.map OxmField.content = FixedLayout.contents bs ∧
      ∀ (ctx : Context) (c : Cursor), c.rest.take FixedLayout.size = bs →
        (read ctx).run c = ⟨.ok m, c.advanceWithin declared.toNat, 0⟩ := by
  have hstands {c : Cursor} (hc : c.rest.take FixedLayout.size = bs) :
      FixedLayout.Stands bs 4 (c.advance 4) := by
    refine FixedLayout.Stands.advance (show FixedLayout.Stands bs 0 c from ?_) 4
    rw [FixedLayout.Stands, hbs]
    exact hc
  have hstart : (Cursor.start bs).rest.take FixedLayout.size = bs := by
    rw [← hbs]
    exact List.take_length
  obtain ⟨fs, c₀, hfs, -⟩ := FixedLayout.lays_readBody hbs _ (hstands hstart)
  have hfields := fields_ofFields_of_content hfs (FixedLayout.nodup_contents bs)
  refine ⟨ofFields fs, by rw [hfields, hfs], fun ctx c hc => ?_⟩
  obtain ⟨fs', c', hfs', hrun⟩ := FixedLayout.lays_readBody hbs _ (hstands hc)
  obtain rfl : fs' = fs := OxmField.content_injective.list_map (hfs'.trans hfs.symm)
  rw [← hc] at hpeek
  have hheader : ¬ declared.toNat < headerSize :=
    Nat.not_lt.mpr (Nat.le_trans (by decide) hdeclared)
  unfold read
  rw [Reader.run_cursor_bind, Reader.run_header_bind (Bytes.peekHeader?_of_take hpeek),
    if_neg hheader, if_neg (by decide), if_pos rfl, if_neg (Nat.not_lt.mpr hdeclared),
    Reader.run_bind_of_quiet hrun]
  rfl

/-- **A match of the fixed layout is read as the fields that it stands for.**  Where 88 bytes are
there and the length covers them, the fields are those on the list, in its order, with the
values on the wire; the cursor goes to the declared end, or to the end of the buffer before it.
The same 88 bytes give the same match in any other place and in any other context, whatever
follows them. -/
theorem read_fixedLayout (ctx : Context) (buf : Bytes) (p : Nat) (declared : UInt16)
    (hpeek : Bytes.peekHeader? (buf.drop p) = some (fixedCode, declared))
    (hdeclared : FixedLayout.size ≤ declared.toNat) (hroom : p + FixedLayout.size ≤ buf.length) :
    ∃ m : Match,
      m.fields.map OxmField.content =
        FixedLayout.contents ((buf.drop p).take FixedLayout.size) ∧
      (read ctx).run (Cursor.at buf p) =
        ⟨.ok m, Cursor.at buf (min (p + declared.toNat) buf.length), 0⟩ ∧
      ∀ (ctx' : Context) (buf' : Bytes) (p' : Nat),
        (buf'.drop p').take FixedLayout.size = (buf.drop p).take FixedLayout.size →
          (read ctx').run (Cursor.at buf' p') =
            ⟨.ok m, Cursor.at buf' (min (p' + declared.toNat) buf'.length), 0⟩ := by
  have hbs : ((buf.drop p).take FixedLayout.size).length = FixedLayout.size := by
    rw [List.length_take, List.length_drop]
    omega
  have hfront : Bytes.peekHeader? ((buf.drop p).take FixedLayout.size) =
      some (fixedCode, declared) :=
    Element.peekHeader?_take (by decide) hpeek
  obtain ⟨m, hfields, hrun⟩ := exists_run_read_of_fixed hbs hfront hdeclared
  have hread (ctx' : Context) (buf' : Bytes) (p' : Nat)
      (hsame : (buf'.drop p').take FixedLayout.size = (buf.drop p).take FixedLayout.size) :
      (read ctx').run (Cursor.at buf' p') =
        ⟨.ok m, Cursor.at buf' (min (p' + declared.toNat) buf'.length), 0⟩ := by
    rw [hrun ctx' (Cursor.at buf' p') hsame, Element.advanceWithin_at]
  exact ⟨m, hfields, hread ctx buf p rfl, hread⟩

/-- A match of TCP segments to 10.0.0.2, for any VLAN identifier and any destination port.  It
declares eight bytes more than the layout has. -/
def tcpLayout : Bytes :=
  [0, 0, 0, 96, 0, 0, 0, 1, 0, 0, 0, 0x82] ++
    [2, 0, 0, 0, 0, 1, 255, 255, 255, 255, 255, 255, 2, 0, 0, 0, 0, 2, 0, 0, 0, 0, 0, 0] ++
    [0, 5, 3, 9, 8, 0, 4, 6, 0, 0, 0, 0, 0, 0, 0, 0, 10, 0, 0, 2, 0, 0, 0, 0] ++
    [4, 210, 0, 80, 0, 0, 0, 16, 1, 7, 7, 7] ++
    [0, 0, 0, 0, 0, 0, 0, 5, 255, 255, 255, 255, 255, 255, 255, 255]

/-- The fields that the layout stands for, read in front of two more bytes. -/
theorem read_fixedLayout_tcpLayout :
    ∃ m : Match,
      m.fields.map OxmField.content =
        [(FieldType.inPort.descriptor, .u32 1, none),
         (FieldType.ethSrc.descriptor, .bytes [2, 0, 0, 0, 0, 1], none),
         (FieldType.ethDst.descriptor, .bytes [2, 0, 0, 0, 0, 2], some (.bytes (Bytes.zeros 6))),
         (FieldType.vlanPcp.descriptor, .u8 3, none),
         (FieldType.ethType.descriptor, .u16 0x0800, none),
         (FieldType.ipDscp.descriptor, .u8 4, none),
         (FieldType.ipProto.descriptor, .u8 6, none),
         (FieldType.ipv4Dst.descriptor, .u32 0x0a000002, some (.u32 0)),
         (FieldType.tcpSrc.descriptor, .u16 1234, none),
         (FieldType.mplsLabel.descriptor, .u32 16, none),
         (FieldType.mplsTc.descriptor, .u8 1, none),
         (FieldType.metadata.descriptor, .u64 5, none)] ∧
      (read {}).run (Cursor.at ([9] ++ tcpLayout ++ [9, 9]) 1) =
        ⟨.ok m, Cursor.at ([9] ++ tcpLayout ++ [9, 9]) 91, 0⟩ := by
  obtain ⟨m, hfields, hrun, -⟩ :=
    read_fixedLayout {} ([9] ++ tcpLayout ++ [9, 9]) 1 96 rfl (by decide) (by decide)
  exact ⟨m, hfields.trans (by decide), hrun⟩

end Match
end OpenFlow
