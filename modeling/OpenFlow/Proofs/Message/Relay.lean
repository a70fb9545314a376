import OpenFlow.Proofs.Element.Stable
import OpenFlow.Proofs.Statistics.RoundTrip

/-!
# Messages that are sent on

A relay decodes a message and encodes it again.  What it has decoded is stable, so the only
thing that can go wrong is a length: the last element of a hello is filled up when it is
written, and a set-field action is rounded up to eight bytes, so a message near the limit of
16 bits can grow out of it.  The elements of packet queues and of meters never grow, and
these can always be sent on.

Main definition:

* `Message.SentOn`: a value that has a wire form, which is decoded as this value.

Main statement:

* `Message.sentOn_of_decode`: what was decoded can be sent on, if its length fits.
-/

namespace OpenFlow

namespace Message

variable {α : Type} [Message α] {ctx : Context} {a : α}

/-- A value can be sent on: it has a wire form, and this is decoded as the value, all of it. -/
def SentOn (ctx : Context) (a : α) : Prop :=
  ∃ b, encode a = .ok b ∧ decode ctx b = .ok (a, b.length)

/-- A value whose two sides agree can be sent on. -/
theorem SentOn.of_agree {n : Nat} (h : ∀ c tail, Agree (write a) (read ctx) c n tail a) :
    SentOn ctx a := by
  obtain ⟨b, hb, hlen, hdecode⟩ := decode_of_agree h
  have hback := hdecode []
  rw [List.append_nil, ← hlen] at hback
  exact ⟨b, hb, hback⟩

/-- Decoding is reading from the start. -/
theorem run_of_decode {buf : Bytes} {n : Nat} (h : decode ctx buf = .ok (a, n)) :
    ∃ c w, (read ctx : Reader α).run (Cursor.start buf) = ⟨.ok a, c, w⟩ ∧ c.pos = n := by
  unfold decode at h
  rcases hrun : (read ctx : Reader α).run (Cursor.start buf) with ⟨error | a', c, w⟩
  · rw [hrun] at h
    exact nomatch h
  · rw [hrun] at h
    cases h
    exact ⟨c, w, rfl, rfl⟩

end Message

variable {ctx : Context}

/-! ## Packet queues -/

namespace PacketQueue

/-- The properties of a queue that was read are a list, in what a 16-bit length leaves. -/
theorem of_run_read {c : Cursor} {q : PacketQueue} (h : ((read ctx).run c).result = .ok q) :
    ∃ (length : Nat) (c' : Cursor), fixedSize ≤ length ∧ length < 65536 ∧
      ((Element.readList ctx (length - fixedSize)).run c').result = .ok q.properties := by
  obtain ⟨queueId, c₁, w₁, -, h⟩ := Reader.exists_of_run_bind h
  obtain ⟨port, c₂, w₂, -, h⟩ := Reader.exists_of_run_bind h
  obtain ⟨length, c₃, w₃, -, h⟩ := Reader.exists_of_run_bind h
  obtain ⟨u, c₄, w₄, -, h⟩ := Reader.exists_of_run_bind h
  by_cases hshort : length.toNat < fixedSize
  · rw [if_pos hshort] at h
    exact absurd h Reader.run_fail_ne
  · rw [if_neg hshort] at h
    obtain ⟨properties, c₅, w₅, hlist, hlast⟩ := Reader.exists_of_run_bind h
    cases hlast
    exact ⟨length.toNat, c₄, Nat.le_of_not_lt hshort, length.toNat_lt,
      congrArg Outcome.result hlist⟩

/-- **A queue that was read can be sent on**: its properties are no longer than they were. -/
theorem sentOn_of_run (hpart : ctx.registries.queueProperties.PartOf QueueProperty.types)
    {c : Cursor} {q : PacketQueue} (h : ((read ctx).run c).result = .ok q) :
    Message.SentOn ctx q := by
  obtain ⟨length, c', hfixed, hlt, hlist⟩ := of_run_read h
  have hproperty (span : Bytes) (p : QueueProperty) (hread : Element.ReadFrom ctx span p) :=
    QueueProperty.readsBack_of_readFrom hpart hread
  obtain ⟨hlimit, hback⟩ :=
    Element.of_run_readList (fun span p hread => (hproperty span p hread).1) hlist
  have hle := Element.listLength_le_of_run_readList Element.stacks_id
    (fun span p hread => (hproperty span p hread).2) hlist
  have hsize : q.size < 65536 := by
    change fixedSize + Element.listLength q.properties < 65536
    change Element.listLength q.properties ≤ min (length - fixedSize) c'.remaining at hle
    omega
  exact .of_agree (agree_of_readsBack hlimit hback hsize)

end PacketQueue

/-! ## Meters -/

namespace MeterConfig

/-- The bands of a meter that was read are a list, in what a 16-bit length leaves. -/
theorem of_run_read {c : Cursor} {m : MeterConfig} (h : ((read ctx).run c).result = .ok m) :
    ∃ (length : Nat) (c' : Cursor), length < 65536 ∧
      ((Element.readList ctx (length - fixedSize)).run c').result = .ok m.bands := by
  obtain ⟨length, c₁, w₁, -, h⟩ := Reader.exists_of_run_bind h
  obtain ⟨flags, c₂, w₂, -, h⟩ := Reader.exists_of_run_bind h
  obtain ⟨meterId, c₃, w₃, -, h⟩ := Reader.exists_of_run_bind h
  obtain ⟨bands, c₄, w₄, hlist, hlast⟩ := Reader.exists_of_run_bind h
  cases hlast
  exact ⟨length.toNat, c₃, length.toNat_lt, congrArg Outcome.result hlist⟩

/-- **A meter that was read can be sent on**: its bands are no longer than they were. -/
theorem sentOn_of_run (hpart : ctx.registries.meterBands.PartOf MeterBand.types) {c : Cursor}
    {m : MeterConfig} (h : ((read ctx).run c).result = .ok m) : Message.SentOn ctx m := by
  obtain ⟨length, c', hlt, hlist⟩ := of_run_read h
  have hband (span : Bytes) (b : MeterBand) (hread : Element.ReadFrom ctx span b) :=
    MeterBand.readsBack_of_readFrom hpart hread
  obtain ⟨hlimit, hback⟩ :=
    Element.of_run_readList (fun span b hread => (hband span b hread).1) hlist
  have hle := Element.listLength_le_of_run_readList Element.stacks_id
    (fun span b hread => (hband span b hread).2) hlist
  have hsize : m.size < 65536 := by
    change 8 + Element.listLength m.bands < 65536
    change Element.listLength m.bands ≤ min (length - 8) c'.remaining at hle
    omega
  exact .of_agree (agree_of_readsBack hlimit hback hsize)

end MeterConfig

/-! ## Hellos -/

namespace MessageHeader

/-- A header that was read declares a length that covers it, and it was passed. -/
theorem of_run_read {c c' : Cursor} {header : MessageHeader} {w : Nat}
    (h : read.run c = ⟨.ok header, c', w⟩) :
    size ≤ header.length.toNat ∧ c.pos + size ≤ c.size ∧ c' = c.advance size := by
  obtain ⟨version, c₁, w₁, v₁, hversion, h⟩ := Reader.of_run_bind h
  obtain ⟨code, c₂, w₂, v₂, hcode, h⟩ := Reader.of_run_bind h
  obtain ⟨length, c₃, w₃, v₃, hlength, h⟩ := Reader.of_run_bind h
  obtain ⟨xid, c₄, w₄, v₄, hxid, h⟩ := Reader.of_run_bind h
  obtain ⟨-, -, rfl⟩ := Reader.of_run_word hversion
  obtain ⟨-, -, rfl⟩ := Reader.of_run_word hcode
  obtain ⟨-, -, rfl⟩ := Reader.of_run_word hlength
  obtain ⟨hfits, -, rfl⟩ := Reader.of_run_word hxid
  by_cases hshort : length.toNat < size
  · rw [if_pos hshort] at h
    exact absurd (congrArg Outcome.result h) Reader.run_fail_ne
  · rw [if_neg hshort] at h
    cases h
    refine ⟨Nat.le_of_not_lt hshort, ?_, ?_⟩
    · change 4 ≤ c.size - (c.pos + 1 + 1 + 2) at hfits
      change c.pos + 8 ≤ c.size
      omega
    · rw [Cursor.advance_advance, Cursor.advance_advance, Cursor.advance_advance]
      rfl

end MessageHeader

namespace Hello

/-- The elements of a hello that was read are a list behind its header, in what a 16-bit length
leaves, and were passed. -/
theorem of_run_read {c c' : Cursor} {h : Hello} {w : Nat}
    (hrun : (read ctx).run c = ⟨.ok h, c', w⟩) :
    ∃ length : Nat, MessageHeader.size ≤ length ∧ length < 65536 ∧
      c.pos + MessageHeader.size ≤ c.size ∧
      ((Element.readList ctx (length - MessageHeader.size)).run
        (c.advance MessageHeader.size)).result = .ok h.elements ∧
      c' = (c.advance MessageHeader.size).advanceWithin (length - MessageHeader.size) := by
  obtain ⟨header, c₁, w₁, v₁, hheader, hrun⟩ := Reader.of_run_bind hrun
  obtain ⟨hle, hinside, rfl⟩ := MessageHeader.of_run_read hheader
  by_cases hkind : header.kind? = some .hello
  · rw [if_pos hkind] at hrun
    obtain ⟨elements, c₂, w₂, v₂, hlist, hlast⟩ := Reader.of_run_bind hrun
    cases hlast
    refine ⟨header.length.toNat, hle, header.length.toNat_lt, hinside,
      congrArg Outcome.result hlist, ?_⟩
    rw [Element.run_readList] at hlist
    rcases hmembers : (Element.readMembers ctx ctx.elementLimit
      ((c.advance MessageHeader.size).rest.take (header.length.toNat - MessageHeader.size)) :
        Reader (List HelloElement)).run (c.advance MessageHeader.size) with ⟨error | members, c₃, w₃⟩
    · rw [hmembers] at hlist
      cases hlist
    · rw [hmembers] at hlist
      cases hlist
      rfl
  · rw [if_neg hkind] at hrun
    exact absurd (congrArg Outcome.result hrun) Reader.run_fail_ne

/-- **A hello that was decoded can be sent on if its length fits**, and its length is at most that
of the bytes it was decoded from, rounded up. -/
theorem sentOn_of_lt (hpart : ctx.registries.helloElements.PartOf HelloElement.types)
    {buf : Bytes} {h : Hello} {n : Nat} (hdecode : Message.decode ctx buf = .ok (h, n)) :
    h.size ≤ align8 n ∧ (h.size < 65536 → Message.SentOn ctx h) := by
  obtain ⟨c', w, hrun, hpos⟩ := Message.run_of_decode hdecode
  obtain ⟨length, hheader, -, hinside, hlist, rfl⟩ := of_run_read hrun
  have helement (span : Bytes) (e : HelloElement) (hread : Element.ReadFrom ctx span e) :=
    HelloElement.readsBack_of_readFrom hpart hread
  obtain ⟨hlimit, hback⟩ :=
    Element.of_run_readList (fun span e hread => (helement span e hread).1) hlist
  have hle := Element.listLength_le_of_run_readList Element.stacks_align8
    (fun span e hread => (helement span e hread).2) hlist
  refine ⟨?_, fun hsize => .of_agree (agree_of_readsBack hlimit hback hsize)⟩
  -- What was passed is the header and the region of the elements.
  have hregion : n = 8 + min (length - 8) (buf.length - 8) := by
    change 8 ≤ length at hheader
    change 0 + 8 ≤ buf.length at hinside
    change min (0 + 8 + (length - 8)) buf.length = n at hpos
    omega
  change Element.listLength h.elements ≤ align8 (min (length - 8) (buf.length - (0 + 8))) at hle
  change 8 + Element.listLength h.elements ≤ align8 n
  rw [hregion]
  unfold align8 at hle ⊢
  omega

theorem encode_of_le {h : Hello} (hsize : 65536 ≤ h.size) :
    Message.encode h = .error (.lengthOverflow "hello" h.size) := by
  change (write h).encode = _
  unfold write
  rw [MessageHeader.announce_of_le hsize]
  rfl

end Hello

/-! ## Statistics of flow entries -/

namespace FlowStats

/-- The match and the instructions of statistics that were read. -/
theorem of_run_read {c : Cursor} {s : FlowStats} (h : ((read ctx).run c).result = .ok s) :
    ∃ (c₁ c₂ : Cursor) (length : Nat), ((Match.read ctx).run c₁).result = .ok s.pattern ∧
      ((Element.readList ctx length).run c₂).result = .ok s.instructions := by
  unfold read at h
  rw [Reader.run_cursor_bind] at h
  obtain ⟨length, c₁, w₁, -, h⟩ := Reader.exists_of_run_bind h
  obtain ⟨tableId, c₂, w₂, -, h⟩ := Reader.exists_of_run_bind h
  obtain ⟨u, c₃, w₃, -, h⟩ := Reader.exists_of_run_bind h
  obtain ⟨durationSec, c₄, w₄, -, h⟩ := Reader.exists_of_run_bind h
  obtain ⟨durationNsec, c₅, w₅, -, h⟩ := Reader.exists_of_run_bind h
  obtain ⟨priority, c₆, w₆, -, h⟩ := Reader.exists_of_run_bind h
  obtain ⟨idleTimeout, c₇, w₇, -, h⟩ := Reader.exists_of_run_bind h
  obtain ⟨hardTimeout, c₈, w₈, -, h⟩ := Reader.exists_of_run_bind h
  obtain ⟨flags, c₉, w₉, -, h⟩ := Reader.exists_of_run_bind h
  obtain ⟨u', c₁₀, w₁₀, -, h⟩ := Reader.exists_of_run_bind h
  obtain ⟨cookie, c₁₁, w₁₁, -, h⟩ := Reader.exists_of_run_bind h
  obtain ⟨packetCount, c₁₂, w₁₂, -, h⟩ := Reader.exists_of_run_bind h
  obtain ⟨byteCount, c₁₃, w₁₃, -, h⟩ := Reader.exists_of_run_bind h
  obtain ⟨pattern, c₁₄, w₁₄, hpattern, h⟩ := Reader.exists_of_run_bind h
  rw [Reader.run_cursor_bind] at h
  obtain ⟨instructions, c₁₅, w₁₅, hlist, hlast⟩ := Reader.exists_of_run_bind h
  cases hlast
  exact ⟨c₁₃, c₁₄, _, congrArg Outcome.result hpattern, congrArg Outcome.result hlist⟩

/-- **Statistics that were read can be sent on if their length fits.** -/
theorem sentOn_of_run (hbasic : ∀ t : FieldType, ctx.registries.fields.Holds t.descriptor)
    (hactions : ctx.registries.actions.PartOf Action.types)
    (hpart : ctx.registries.instructions.PartOf Instruction.types) {c : Cursor} {s : FlowStats}
    (h : ((read ctx).run c).result = .ok s) (hsize : s.size < 65536) : Message.SentOn ctx s := by
  obtain ⟨c₁, c₂, length, hpattern, hlist⟩ := of_run_read h
  obtain ⟨hfinds, hspan, -⟩ := Match.of_run_read hbasic hpattern
  obtain ⟨hlimit, hback⟩ :=
    Element.of_run_readList (fun _ _ => Instruction.readsBack_of_readFrom hactions hpart) hlist
  exact .of_agree (agree_of_readsBack hfinds hspan hlimit hback hsize)

theorem encode_of_le {s : FlowStats} (hsize : 65536 ≤ s.size) :
    Message.encode s = .error (.lengthOverflow "flow stats" s.size) := by
  change (write s).encode = _
  unfold write
  simp only [Writer.append_assoc]
  rw [Writer.length16_of_le hsize]
  rfl

end FlowStats

/-! ## Elements that are not filled up

Reading takes the last element of a hello as it is, and a set-field action too.
-/

namespace Element

variable {ε : Type} [Element ε] [Lawful ε]

/-- A single element that is not filled up is read all the same. -/
theorem agree_single {e : ε} (hlimit : ctx.Allows 1) (h : ReadsBack ctx e)
    (hlt : length e < 65536) (c : Cursor) (tail : Bytes) :
    Agree (write e) (readList ctx (length e)) c (length e) tail [e] := by
  obtain ⟨bs, hbs, hlen⟩ := Lawful.spans_write hlt
  rw [← hlen]
  refine agree_of_run_readMembers hbs (fun c => ?_) c tail
  have hmore : ctx.elementLimit ≠ some 0 := fun hzero =>
    absurd (hlimit 0 hzero) (Nat.not_succ_le_zero _)
  have hnil : bs.drop (occupied ε bs.length) = [] :=
    List.drop_eq_nil_of_le (Framed.le_occupied _)
  have hrun := run_readMembers_append h hbs [] hmore c
  have hrest : (readMembers ctx (ctx.elementLimit.map (· - 1)) [] : Reader (List ε)).run c =
      ⟨.ok [], c, 0⟩ := run_readMembers_of_length_lt (Nat.zero_lt_succ 3)
  rw [List.append_nil, hnil, run_goOn_ok, hrest] at hrun
  exact hrun

end Element

namespace Hello

/-- A hello of one element that is not filled up. -/
theorem agree_single {e : HelloElement} {xid : UInt32} (hlimit : ctx.Allows 1)
    (h : Element.ReadsBack ctx e) (hlt : MessageHeader.size + Element.length e < 65536) (c : Cursor)
    (tail : Bytes) :
    Agree (MessageHeader.announce "hello" .hello (MessageHeader.size + Element.length e) xid ++
      Element.write e) (read ctx) c (MessageHeader.size + Element.length e) tail ⟨xid, [e]⟩ := by
  have hlength : (UInt16.ofNat (MessageHeader.size + Element.length e)).toNat -
      MessageHeader.size = Element.length e := by
    rw [UInt16.toNat_ofNat_of_lt' hlt, Nat.add_sub_cancel_left]
  unfold read
  refine MessageHeader.agree_announce (Nat.le_add_right _ _) hlt ?_
  rw [MessageHeader.kind?_announced, if_pos rfl]
  change Agree _ (Element.readList ctx ((UInt16.ofNat (MessageHeader.size +
    Element.length e)).toNat - MessageHeader.size) >>= _) _ _ _ _
  rw [hlength]
  exact Agree.map (Element.agree_single hlimit h (by omega) _ tail)

end Hello

/-- An element of a hello of an unknown code is written as it is. -/
theorem HelloElement.encode_unknown {code length : UInt16} {body : Bytes}
    (h : length.toNat = Element.commonHeaderSize + body.length) :
    (Element.write (unknown code length body)).encode =
      .ok (Bytes.ofUInt16 code ++ Bytes.ofUInt16 length ++ body) := by
  have hlt : Element.commonHeaderSize + body.length < 65536 := h ▸ length.toNat_lt
  have hheader : (Element.writeHeader code (Element.commonHeaderSize + body.length)).encode =
      .ok (Bytes.ofUInt16 code ++ Bytes.ofUInt16 length) := by
    refine Element.encode_writeHeader_eq_ok_iff.mpr ⟨hlt, ?_⟩
    rw [Element.ofNat_length h]
  exact Writer.encode_append_of_ok hheader (Writer.encode_bytes body)

/-- So is an instruction. -/
theorem Instruction.encode_unknown {code length : UInt16} {body : Bytes}
    (h : length.toNat = Element.commonHeaderSize + body.length) :
    (Element.write (unknown code length body)).encode =
      .ok (Bytes.ofUInt16 code ++ Bytes.ofUInt16 length ++ body) := by
  have hmax : max length.toNat Element.commonHeaderSize = length.toNat :=
    Nat.max_eq_left (h ▸ Nat.le_add_right _ _)
  have hheader : (Element.writeHeader code (max length.toNat Element.commonHeaderSize)).encode =
      .ok (Bytes.ofUInt16 code ++ Bytes.ofUInt16 length) := by
    rw [hmax]
    refine Element.encode_writeHeader_eq_ok_iff.mpr ⟨length.toNat_lt, ?_⟩
    rw [UInt16.ofNat_toNat]
  exact Writer.encode_append_of_ok hheader (Element.encode_fitted h)

namespace Message

/-- An instruction around a set-field action of nine bytes, which is not filled up. -/
def unfilledInstruction : Bytes := [0, 4, 0, 17, 0, 0, 0, 0, 0, 25, 0, 9, 0x80, 0, 14, 1, 3]

/-- The instruction that it is read as. -/
def setPriority : Instruction :=
  .applyActions [.setField (.known ⟨FieldType.vlanPcp.descriptor, .u8 3, none, rfl, rfl⟩)]

end Message

/-! ## All of them -/

/-- **What was decoded can be sent on, if its length fits**, in the default context.  Packet queues
and meters always fit.  A hello or statistics of a flow entry that do not fit are refused for
their length; a hello is at most seven bytes longer than what it was decoded from. -/
theorem Message.sentOn_of_decode (buf : Bytes) :
    (∀ (q : PacketQueue) (n : Nat), decode {} buf = .ok (q, n) → SentOn {} q) ∧
    (∀ (m : MeterConfig) (n : Nat), decode {} buf = .ok (m, n) → SentOn {} m) ∧
    (∀ (h : Hello) (n : Nat), decode {} buf = .ok (h, n) →
      h.size ≤ align8 n ∧ (h.size < 65536 → SentOn {} h) ∧
        (65536 ≤ h.size → encode h = .error (.lengthOverflow "hello" h.size))) ∧
    (∀ (s : FlowStats) (n : Nat), decode {} buf = .ok (s, n) →
      (s.size < 65536 → SentOn {} s) ∧
        (65536 ≤ s.size → encode s = .error (.lengthOverflow "flow stats" s.size))) := by
  refine ⟨fun q n hdecode => ?_, fun m n hdecode => ?_, fun h n hdecode => ?_,
    fun s n hdecode => ?_⟩
  · obtain ⟨c, w, hrun, -⟩ := run_of_decode hdecode
    exact PacketQueue.sentOn_of_run (Registry.PartOf.refl _) (congrArg Outcome.result hrun)
  · obtain ⟨c, w, hrun, -⟩ := run_of_decode hdecode
    exact MeterConfig.sentOn_of_run (Registry.PartOf.refl _) (congrArg Outcome.result hrun)
  · obtain ⟨hle, hfits⟩ := Hello.sentOn_of_lt (Registry.PartOf.refl _) hdecode
    exact ⟨hle, hfits, Hello.encode_of_le⟩
  · obtain ⟨c, w, hrun, -⟩ := run_of_decode hdecode
    exact ⟨FlowStats.sentOn_of_run FieldCatalog.holds_basic (Registry.PartOf.refl _)
      (Registry.PartOf.refl _) (congrArg Outcome.result hrun), FlowStats.encode_of_le⟩

namespace Message

/-- An element of a hello that is not filled up. -/
def unfilledHello : Bytes := [4, 0, 0, 13, 0, 0, 0, 5, 0, 9, 0, 5, 1]

/-- A property of a queue behind padding that is not zero. -/
def untidyQueue : Bytes :=
  [0, 0, 0, 5, 0, 0, 0, 6, 0, 26, 1, 1, 1, 1, 1, 1, 0, 9, 0, 10, 1, 1, 1, 1, 1, 2]

/-- A band of a meter in front of padding that is not zero. -/
def untidyMeter : Bytes :=
  [0, 24, 0, 1, 0, 0, 0, 7, 0, 1, 0, 16, 0, 0, 0, 8, 0, 0, 0, 9, 1, 1, 1, 1]

/-- Statistics of a flow entry with an empty match and this instruction. -/
def unfilledStats : Bytes :=
  [0, 73] ++ (Bytes.zeros 46 ++ ([0, 1, 0, 4, 0, 0, 0, 0] ++ unfilledInstruction))

/-- One of each is sent on; the hello and the statistics grow on the way, from 13 bytes to 16 and
from 73 bytes to 80. -/
theorem sentOn_of_decode_unfilled :
    SentOn {} (PacketQueue.mk 5 6 [.unknown 9 10 [1, 2]]) ∧
    SentOn {} (MeterConfig.mk 1 7 [⟨8, 9, .drop⟩]) ∧
    SentOn {} (Hello.mk 5 [.unknown 9 5 [1]]) ∧
    SentOn {} ({ instructions := [setPriority] } : FlowStats) := by
  refine ⟨?_, ?_, ?_, ?_⟩
  · exact (sentOn_of_decode untidyQueue).1 _ 26 (by with_unfolding_all rfl)
  · exact (sentOn_of_decode untidyMeter).2.1 _ 24 (by with_unfolding_all rfl)
  · exact ((sentOn_of_decode unfilledHello).2.2.1 _ 13 (by with_unfolding_all rfl)).2.1 (by decide)
  · exact ((sentOn_of_decode unfilledStats).2.2.2 _ 73 (by with_unfolding_all rfl)).1 (by decide)

/-- A hello of the greatest length, with one element that is not filled up. -/
def longestHello (body : Bytes) : Bytes :=
  [4, 0, 0xff, 0xff, 0, 0, 0, 0] ++ ([0, 9, 0xff, 0xf7] ++ body)

theorem decode_longestHello {body : Bytes} (h : body.length = 65523) :
    decode {} (longestHello body) = .ok (Hello.mk 0 [.unknown 9 65527 body], 65535) := by
  have hlength : (65527 : UInt16).toNat = Element.commonHeaderSize + body.length := by
    rw [h]
    rfl
  have hback : Element.ReadsBack {} (HelloElement.unknown 9 65527 body) :=
    HelloElement.readsBack rfl ⟨rfl, hlength⟩
  have hsize : MessageHeader.size + Element.length (HelloElement.unknown 9 65527 body) = 65535 := by
    change 8 + (4 + body.length) = 65535
    rw [h]
  have hagree (c : Cursor) : Agree (MessageHeader.announce "hello" .hello (MessageHeader.size +
      Element.length (HelloElement.unknown 9 65527 body)) 0 ++
        Element.write (HelloElement.unknown 9 65527 body)) (Message.read {}) c
      (MessageHeader.size + Element.length (HelloElement.unknown 9 65527 body)) []
      (Hello.mk 0 [.unknown 9 65527 body]) :=
    Hello.agree_single (.of_unlimited rfl 1) hback (hsize ▸ by decide) c []
  rw [hsize] at hagree
  have hheader : (MessageHeader.announce "hello" .hello 65535 0).encode =
      .ok [4, 0, 0xff, 0xff, 0, 0, 0, 0] := rfl
  have hunknown : (Element.write (HelloElement.unknown 9 65527 body)).encode =
      .ok ([0, 9, 0xff, 0xf7] ++ body) := HelloElement.encode_unknown hlength
  have hdecode := decode_of_encode hagree (Writer.encode_append_of_ok hheader hunknown)
  rwa [List.append_nil] at hdecode

/-- Statistics of the greatest length, with an empty match, an instruction of an unknown code, and
one that is not filled up. -/
def longestStats (body : Bytes) : Bytes :=
  [0xff, 0xff] ++ (Bytes.zeros 46 ++ [0, 1, 0, 4, 0, 0, 0, 0]) ++ ([0x12, 0x34, 0xff, 0xb6] ++ body)
    ++ unfilledInstruction

/-- The instruction that is not filled up is read behind one that is. -/
theorem run_readMembers_append_unfilled {i : Instruction} {bs : Bytes}
    (hback : Element.ReadsBack {} i) (hencode : (Element.write i).encode = .ok bs) (c : Cursor) :
    (Element.readMembers {} none (bs ++ unfilledInstruction) : Reader (List Instruction)).run c =
      ⟨.ok [i, setPriority], c, 0⟩ := by
  have hunfilled :
      (Element.readMembers {} none unfilledInstruction : Reader (List Instruction)).run c =
        ⟨.ok [setPriority], c, 0⟩ := by
    with_unfolding_all rfl
  rw [Element.run_readMembers_append hback hencode _ (Option.some_ne_none 0).symm]
  change (Element.goOn (Element.readMembers {} none
    ((bs ++ unfilledInstruction).drop bs.length)) (.ok i)).run c = _
  rw [List.drop_left, Element.run_goOn_ok, hunfilled]
  rfl

theorem decode_longestStats {body : Bytes} (h : body.length = 65458) :
    decode {} (longestStats body) =
      .ok ({ instructions := [.unknown 0x1234 65462 body, setPriority] : FlowStats }, 65535) := by
  have hlength : (65462 : UInt16).toNat = Element.commonHeaderSize + body.length := by
    rw [h]
    rfl
  have hback : Element.ReadsBack {} (Instruction.unknown 0x1234 65462 body) :=
    Instruction.readsBack rfl rfl ⟨rfl, hlength⟩
  have hunknown : (Element.write (Instruction.unknown 0x1234 65462 body)).encode =
      .ok ([0x12, 0x34, 0xff, 0xb6] ++ body) := Instruction.encode_unknown hlength
  have hsize : ([0x12, 0x34, 0xff, 0xb6] ++ body ++ unfilledInstruction).length = 65479 := by
    rw [List.length_append, List.length_append, h]
    rfl
  have hwrite := Writer.encode_append_of_ok hunknown (Writer.encode_bytes unfilledInstruction)
  have hlist (c : Cursor) : Agree
      (Element.write (Instruction.unknown 0x1234 65462 body) ++ Writer.bytes unfilledInstruction)
      (Element.readList {} 65479) c 65479 [] [.unknown 0x1234 65462 body, setPriority] :=
    hsize ▸ Element.agree_of_run_readMembers hwrite
      (run_readMembers_append_unfilled hback hunknown) c []
  have hpattern : ∀ f ∈ Match.all.fields, FieldCatalog.basic.Finds f.descriptor :=
    fun f hf => absurd hf List.not_mem_nil
  have hspan : Match.all.span < 65536 := by decide
  have hlt : FlowStats.fixedSize + Match.all.size + 65479 < 65536 := by decide
  have hagree := FlowStats.agree_of_list
    (s := { instructions := [.unknown 0x1234 65462 body, setPriority] }) hpattern hspan hlt hlist
  simp only [← Writer.append_assoc] at hagree
  have hfront : (Writer.length16 "flow stats" 65535 ++ Writer.u8 0 ++ Writer.zeros 1 ++
      Writer.u32 0 ++ Writer.u32 0 ++ Writer.u16 0 ++ Writer.u16 0 ++ Writer.u16 0 ++
      Writer.u16 0 ++ Writer.zeros 4 ++ Writer.u64 0 ++ Writer.u64 0 ++ Writer.u64 0 ++
      Match.all.write).encode =
        .ok ([0xff, 0xff] ++ (Bytes.zeros 46 ++ [0, 1, 0, 4, 0, 0, 0, 0])) := by
    with_unfolding_all rfl
  have hencode := Writer.encode_append_of_ok (Writer.encode_append_of_ok hfront hunknown)
    (Writer.encode_bytes unfilledInstruction)
  have hdecode := decode_of_encode hagree hencode
  rwa [List.append_nil] at hdecode

theorem size_longestHello {body : Bytes} (h : body.length = 65523) :
    (Hello.mk 0 [.unknown 9 65527 body]).size = 65536 := by
  change 8 + (align8 (4 + body.length) + 0) = 65536
  rw [h]
  rfl

theorem size_longestStats (body : Bytes) :
    ({ instructions := [.unknown 0x1234 65462 body, setPriority] } : FlowStats).size = 65542 := by
  have hpattern : Match.all.size = 8 := rfl
  have hunknown : (Instruction.unknown 0x1234 65462 body).length = 65462 := rfl
  have hset : setPriority.length = 24 := rfl
  change 48 + Match.all.size + ((Instruction.unknown 0x1234 65462 body).length +
    (setPriority.length + 0)) = 65542
  rw [hpattern, hunknown, hset]

/-- Both are decoded, and neither can be sent on: they have grown by one byte and by seven. -/
theorem not_sentOn_longest :
    decode {} (longestHello (Bytes.zeros 65523)) =
        .ok (Hello.mk 0 [.unknown 9 65527 (Bytes.zeros 65523)], 65535) ∧
      encode (Hello.mk 0 [.unknown 9 65527 (Bytes.zeros 65523)]) =
        .error (.lengthOverflow "hello" 65536) ∧
      decode {} (longestStats (Bytes.zeros 65458)) = .ok ({ instructions :=
        [.unknown 0x1234 65462 (Bytes.zeros 65458), setPriority] : FlowStats }, 65535) ∧
      encode ({ instructions :=
        [.unknown 0x1234 65462 (Bytes.zeros 65458), setPriority] } : FlowStats) =
        .error (.lengthOverflow "flow stats" 65542) := by
  have hbody : (Bytes.zeros 65523).length = 65523 := Bytes.length_zeros _
  have hhello := size_longestHello hbody
  have hstats := size_longestStats (Bytes.zeros 65458)
  refine ⟨decode_longestHello hbody, ?_, decode_longestStats (Bytes.length_zeros 65458), ?_⟩
  · rw [Hello.encode_of_le (Nat.le_of_eq hhello.symm), hhello]
  · rw [FlowStats.encode_of_le (Nat.le_trans (by decide) (Nat.le_of_eq hstats.symm)), hstats]

end Message
end OpenFlow
