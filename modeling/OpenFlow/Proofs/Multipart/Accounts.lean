import OpenFlow.Proofs.Element.Accounts
import OpenFlow.Proofs.Multipart.RoundTrip

/-!
# Lengths in messages

The sizes of values and the bytes that their writers append are given by separate functions.
They agree for all types with a wire form of their own, and for all elements, matches and
records in a value of one of these types: each is written under its own length.  The one
proviso is on matches, whose length is never refused and may wrap around.

Main definitions:

* `MessageType`: the types with a wire form of their own.
* `MessageType.parts`: all in a value that declares its length, at any depth.
* `MessageType.patterns`: the matches in a value.

Main statement:

* `MessageType.encode_accounts`: what is written has the size that is computed, every part in
  it is written under its own length, and only a length that does not fit is refused, for
  values of all types and lists of elements of all families.
-/

namespace OpenFlow

/-- A value with a wire form of its own, as a part that declares its size. -/
def Message.sizedPart {α : Type} [Message α] (lengthAt : Nat) (what : String) (a : α) :
    SizedPart :=
  ⟨write a, size a, size a, lengthAt, what⟩

theorem Writer.Spans.text (width : Nat) (s : String) : Writer.Spans (Writer.text width s) width :=
  Writer.Spans.bytes (Text.length_write width s)

namespace Match

/-- A match as a part that declares the length of its header and its fields, without padding. -/
def sizedPart (m : Match) : SizedPart := ⟨m.write, m.size, m.span, 2, "match"⟩

/-- A match whose length fits 16 bits is written in its size, under its length. -/
theorem accounts {m : Match} (h : m.span ≤ 65535) :
    Writer.Accounts m.write m.size [m.sizedPart] := by
  obtain ⟨fields, hlen, hw⟩ := encode_write m
  have hlength : m.length.toNat = m.span := by
    rw [toNat_length, Nat.mod_eq_of_lt (Nat.lt_succ_of_le h)]
  constructor
  · intro bs hbs
    obtain rfl := Except.ok.inj (hw.symm.trans hbs)
    have hsize : (Bytes.ofUInt16 oxmCode ++ Bytes.ofUInt16 m.length ++ fields
        ++ Bytes.zeros (padding8 m.length.toNat)).length = m.size := by
      change _ = align8 m.length.toNat
      rw [hlength]
      simp only [List.length_append, Bytes.length_ofUInt16, Bytes.length_zeros, hlen]
      exact add_padding8 m.span
    refine ⟨hsize, List.forall_mem_singleton.mpr (SizedPart.WrittenIn.of_encode hbs hsize ?_)⟩
    change (Bytes.peekUInt16? (List.drop 2 _)).map UInt16.toNat = some m.span
    rw [List.append_assoc, List.append_assoc, List.drop_left' (Bytes.length_ofUInt16 _),
      Bytes.peekUInt16?_append, Option.map_some, hlength]
  · intro e he
    exact nomatch hw.symm.trans he

end Match

namespace MessageHeader

/-- A message that is announced accounts for itself and for what follows its header. -/
theorem accounts_announce {p : SizedPart} {kind : MessageKind} {xid : UInt32} {w : Writer}
    [Writer.Uniform w] {n : Nat} {parts : List SizedPart}
    (hwrite : p.write = announce p.what kind p.declared xid ++ w) (hat : p.lengthAt = 2)
    (hw : Writer.Accounts w n parts) (hsize : size + n = p.size) :
    Writer.Accounts (announce p.what kind p.declared xid ++ w) p.size (p :: parts) := by
  by_cases hlt : p.declared < 65536
  · have hlength : Writer.u16 (UInt16.ofNat p.declared) = Writer.length16 p.what p.declared := by
      unfold Writer.length16 fitLength
      rw [if_pos hlt]
    have hheader : announce p.what kind p.declared xid ++ w =
        Writer.u8 currentVersion ++ Writer.u8 kind.code ++
          (Writer.length16 p.what p.declared ++ (Writer.u32 xid ++ w)) := by
      rw [announce_of_lt hlt, ← hlength]
      simp only [write, announced, Writer.append_assoc]
    have hfront : Writer.Spans (Writer.u8 currentVersion ++ Writer.u8 kind.code) p.lengthAt := by
      rw [hat]
      exact Writer.Spans.append (Writer.Spans.u8 _) (Writer.Spans.u8 _)
    rw [hheader] at hwrite ⊢
    refine Writer.Accounts.framed hwrite hfront (hw.behind (Writer.Spans.u32 xid)) ?_
    rw [hat, ← hsize]
    change 2 + (2 + (4 + n)) = 8 + n
    omega
  · have herror : (announce p.what kind p.declared xid ++ w).encode =
        .error (.lengthOverflow p.what p.declared) := by
      rw [announce_of_le (Nat.le_of_not_lt hlt)]
      rfl
    constructor
    · intro bs hbs
      rw [herror] at hbs
      cases hbs
    · intro e he
      exact ⟨p, List.mem_cons_self .., Nat.le_of_not_lt hlt,
        (Except.error.inj (herror.symm.trans he)).symm⟩

end MessageHeader

/-! ## Messages and records -/

namespace Hello

/-- All in a hello that declares its length: itself and its elements. -/
def parts (h : Hello) : List SizedPart :=
  Message.sizedPart 2 "hello" h :: h.elements.flatMap (Family.parts .helloElement)

theorem accounts (h : Hello) : Writer.Accounts h.write h.size h.parts := by
  have hlist : Writer.Accounts (Element.writeList h.elements) (Element.listLength h.elements) _ :=
    Family.accounts_writeList .helloElement h.elements
  exact MessageHeader.accounts_announce (p := Message.sizedPart 2 "hello" h) rfl rfl hlist rfl

end Hello

namespace PacketQueue

/-- All in a queue that declares its length: itself and its properties. -/
def parts (q : PacketQueue) : List SizedPart :=
  Message.sizedPart 8 "packet queue" q :: q.properties.flatMap (Family.parts .queueProperty)

theorem accounts (q : PacketQueue) : Writer.Accounts q.write q.size q.parts := by
  have hlist : Writer.Accounts (Element.writeList q.properties)
      (Element.listLength q.properties) _ :=
    Family.accounts_writeList .queueProperty q.properties
  have hwrite : q.write = Writer.u32 q.queueId ++ Writer.u32 q.port ++
      (Writer.length16 "packet queue" q.size ++
        (Writer.zeros 6 ++ Element.writeList q.properties)) := by
    unfold write
    simp only [Writer.append_assoc]
  rw [hwrite]
  refine Writer.Accounts.framed (p := Message.sizedPart 8 "packet queue" q) hwrite
    (Writer.Spans.append (Writer.Spans.u32 _) (Writer.Spans.u32 _))
    (hlist.behind (Writer.Spans.zeros 6)) ?_
  change 8 + (2 + (6 + Element.listLength q.properties)) = 16 + Element.listLength q.properties
  omega

end PacketQueue

namespace FlowStatsRequest

theorem accounts {r : FlowStatsRequest} (h : r.pattern.span ≤ 65535) :
    Writer.Accounts r.write r.size [r.pattern.sizedPart] := by
  unfold write
  simp only [Writer.append_assoc]
  refine (Writer.Accounts.behind (Writer.Spans.u8 _) <| .behind (Writer.Spans.zeros _) <|
    .behind (Writer.Spans.u32 _) <| .behind (Writer.Spans.u32 _) <|
    .behind (Writer.Spans.zeros _) <| .behind (Writer.Spans.u64 _) <|
    .behind (Writer.Spans.u64 _) (Match.accounts h)).of_size_eq ?_
  change _ = 32 + r.pattern.size
  omega

end FlowStatsRequest

namespace FlowStats

/-- All in statistics of a flow entry that declares its length: the record itself, its match, its
instructions and their actions. -/
def parts (s : FlowStats) : List SizedPart :=
  Message.sizedPart 0 "flow stats" s :: s.pattern.sizedPart ::
    s.instructions.flatMap (Family.parts .instruction)

theorem accounts {s : FlowStats} (h : s.pattern.span ≤ 65535) :
    Writer.Accounts s.write s.size s.parts := by
  have hlist : Writer.Accounts (Element.writeList s.instructions)
      (Element.listLength s.instructions) _ :=
    Family.accounts_writeList .instruction s.instructions
  have hbody := Writer.Accounts.append (Match.accounts h) hlist
  unfold write
  simp only [Writer.append_assoc]
  refine Writer.Accounts.opened (p := Message.sizedPart 0 "flow stats" s) ?_ rfl
    (.behind (Writer.Spans.u8 _) <| .behind (Writer.Spans.zeros _) <|
      .behind (Writer.Spans.u32 _) <| .behind (Writer.Spans.u32 _) <|
      .behind (Writer.Spans.u16 _) <| .behind (Writer.Spans.u16 _) <|
      .behind (Writer.Spans.u16 _) <| .behind (Writer.Spans.u16 _) <|
      .behind (Writer.Spans.zeros _) <| .behind (Writer.Spans.u64 _) <|
      .behind (Writer.Spans.u64 _) <| .behind (Writer.Spans.u64 _) hbody) ?_
  · change s.write = _
    unfold write
    simp only [Writer.append_assoc]
    rfl
  · change _ = 48 + s.pattern.size + Element.listLength s.instructions
    omega

end FlowStats

namespace GroupStats

/-- All in statistics of a group that declares its length: only the record itself. -/
def parts (s : GroupStats) : List SizedPart := [Message.sizedPart 0 "group stats" s]

theorem accounts (s : GroupStats) : Writer.Accounts s.write s.size s.parts := by
  have hbuckets : Writer.Spans (Writer.each BucketCounter.write s.buckets)
      (BucketCounter.size * s.buckets.length) :=
    Writer.Spans.each_const fun b _ => (BucketCounter.agree b (Cursor.start []) []).spans
  unfold write
  simp only [Writer.append_assoc]
  refine Writer.Accounts.opened (p := Message.sizedPart 0 "group stats" s) ?_ rfl
    (.behind (Writer.Spans.zeros _) <| .behind (Writer.Spans.u32 _) <|
      .behind (Writer.Spans.u32 _) <| .behind (Writer.Spans.zeros _) <|
      .behind (Writer.Spans.u64 _) <| .behind (Writer.Spans.u64 _) <|
      .behind (Writer.Spans.u32 _) <| .behind (Writer.Spans.u32 _) <| .of_spans hbuckets) ?_
  · change s.write = _
    unfold write
    simp only [Writer.append_assoc]
    rfl
  · change _ = 40 + BucketCounter.size * s.buckets.length
    omega

end GroupStats

namespace MeterConfig

/-- All in a configuration that declares its length: itself and its bands. -/
def parts (m : MeterConfig) : List SizedPart :=
  Message.sizedPart 0 "meter config" m :: m.bands.flatMap (Family.parts .meterBand)

theorem accounts (m : MeterConfig) : Writer.Accounts m.write m.size m.parts := by
  have hlist : Writer.Accounts (Element.writeList m.bands) (Element.listLength m.bands) _ :=
    Family.accounts_writeList .meterBand m.bands
  unfold write
  simp only [Writer.append_assoc]
  refine Writer.Accounts.opened (p := Message.sizedPart 0 "meter config" m) ?_ rfl
    (.behind (Writer.Spans.u16 _) <| .behind (Writer.Spans.u32 _) hlist) ?_
  · change m.write = _
    unfold write
    simp only [Writer.append_assoc]
    rfl
  · change _ = 8 + Element.listLength m.bands
    omega

end MeterConfig

namespace TableFeatures

/-- All in the features of a table that declares its length: the record itself, its properties and
the element ids in them. -/
def parts (t : TableFeatures) : List SizedPart :=
  Message.sizedPart 0 "table features" t :: t.properties.flatMap (Family.parts .tableProperty)

theorem accounts (t : TableFeatures) : Writer.Accounts t.write t.size t.parts := by
  have hlist : Writer.Accounts (Element.writeList t.properties)
      (Element.listLength t.properties) _ :=
    Family.accounts_writeList .tableProperty t.properties
  unfold write
  simp only [Writer.append_assoc]
  refine Writer.Accounts.opened (p := Message.sizedPart 0 "table features" t) ?_ rfl
    (.behind (Writer.Spans.u8 _) <| .behind (Writer.Spans.zeros _) <|
      .behind (Writer.Spans.text _ _) <| .behind (Writer.Spans.u64 _) <|
      .behind (Writer.Spans.u64 _) <| .behind (Writer.Spans.u32 _) <|
      .behind (Writer.Spans.u32 _) hlist) ?_
  · change t.write = _
    unfold write
    simp only [Writer.append_assoc]
    rfl
  · change _ = 64 + Element.listLength t.properties
    unfold nameWidth
    omega

/-- Nothing in the features of a table is longer than they are. -/
theorem declared_le_size {t : TableFeatures} {p : SizedPart} (h : p ∈ t.parts) :
    p.declared ≤ t.size := by
  rcases List.mem_cons.mp h with rfl | h
  · exact Nat.le_refl _
  · obtain ⟨q, hq, hp⟩ := List.mem_flatMap.mp h
    exact Nat.le_trans (TableProperty.declared_le_length hp)
      (Nat.le_trans (Element.length_le_listLength hq) (Nat.le_add_left _ _))

/-- So the features of a table have a wire form, if their length fits. -/
theorem exists_encode {t : TableFeatures} (h : t.size < 65536) :
    ∃ b, Message.encode t = .ok b := by
  cases hencode : Message.encode t with
  | ok b => exact ⟨b, rfl⟩
  | error e =>
    obtain ⟨p, hp, hlong, -⟩ := (accounts t).of_error e hencode
    have hle := declared_le_size hp
    omega

end TableFeatures

namespace SwitchDescription

theorem spans_write (d : SwitchDescription) : Writer.Spans d.write size := by
  unfold write
  simp only [Writer.append_assoc]
  exact (Writer.Spans.append (Writer.Spans.text _ _) <| .append (Writer.Spans.text _ _) <|
    .append (Writer.Spans.text _ _) <| .append (Writer.Spans.text _ _) <|
    Writer.Spans.text _ _).of_size_eq rfl

end SwitchDescription

namespace Body

/-- All in a body that declares its length. -/
def parts : Body → List SizedPart
  | flowStatsRequest r | aggregateStatsRequest r => [r.pattern.sizedPart]
  | flowStats s => s.parts
  | groupStats s => s.parts
  | meterConfig m => m.parts
  | tableFeatures t => t.parts
  | _ => []

/-- The match in a body, if it has one. -/
def patterns : Body → List Match
  | flowStatsRequest r | aggregateStatsRequest r => [r.pattern]
  | flowStats s => [s.pattern]
  | _ => []

theorem accounts {b : Body} (h : ∀ m ∈ b.patterns, m.span ≤ 65535) :
    Writer.Accounts b.write b.size b.parts := by
  cases b with
  | empty => exact .of_spans Writer.Spans.skip
  | description d => exact .of_spans d.spans_write
  | flowStatsRequest r | aggregateStatsRequest r =>
    exact FlowStatsRequest.accounts (h _ (List.mem_singleton_self _))
  | flowStats s => exact FlowStats.accounts (h _ (List.mem_singleton_self _))
  | aggregateStats s => exact .of_spans (s.agree (Cursor.start []) []).spans
  | tableStats s => exact .of_spans (s.agree (Cursor.start []) []).spans
  | portStatsRequest r | queueStatsRequest r =>
    exact .of_spans (r.agree (Cursor.start []) []).spans
  | portStats s => exact .of_spans (s.agree (Cursor.start []) []).spans
  | queueStats s => exact .of_spans (s.agree (Cursor.start []) []).spans
  | groupStatsRequest r | meterRequest r => exact .of_spans (r.agree (Cursor.start []) []).spans
  | groupStats s => exact s.accounts
  | meterConfig m => exact m.accounts
  | tableFeatures t => exact t.accounts
  | experimenter b => exact .of_spans (b.agree (Cursor.start [])).spans
  | unknown bytes => exact .of_spans (Writer.Spans.bytes rfl)

end Body

namespace MultipartMessage

/-- All in a multipart message that declares its length: the message itself, and all in its
bodies. -/
def parts (m : MultipartMessage) : List SizedPart :=
  Message.sizedPart 2 "multipart" m :: m.bodies.flatMap Body.parts

theorem accounts {m : MultipartMessage}
    (h : ∀ p ∈ m.bodies.flatMap Body.patterns, p.span ≤ 65535) :
    Writer.Accounts m.write m.size m.parts := by
  have hbodies : Writer.Accounts (Writer.each Body.write m.bodies) (total Body.size m.bodies)
      (m.bodies.flatMap Body.parts) :=
    Writer.Accounts.each fun b hb => Body.accounts fun p hp =>
      h p (List.mem_flatMap.mpr ⟨b, hb, hp⟩)
  unfold write
  simp only [Writer.append_assoc]
  refine MessageHeader.accounts_announce (p := Message.sizedPart 2 "multipart" m) ?_ rfl
    (.behind (Writer.Spans.u16 _) <| .behind (Writer.Spans.u16 _) <|
      .behind (Writer.Spans.zeros _) hbodies) ?_
  · change m.write = _
    unfold write
    simp only [Writer.append_assoc]
    rfl
  · change 8 + (2 + (2 + (4 + total Body.size m.bodies))) = 16 + total Body.size m.bodies
    omega

end MultipartMessage

/-! ## All types -/

/-- The types with a wire form of their own. -/
inductive MessageType where
  | oxmField
  | pattern
  | hello
  | packetQueue
  | multipart
  | switchDescription
  | flowStatsRequest
  | flowStats
  | aggregateStats
  | tableStats
  | portQueueRequest
  | portStats
  | queueStats
  | idRequest
  | groupStats
  | experimenterBody
  | meterConfig
  | tableFeatures
  deriving DecidableEq, Repr

namespace MessageType

/-- The values of a type. -/
def Value : MessageType → Type
  | oxmField => OxmField
  | pattern => Match
  | hello => Hello
  | packetQueue => PacketQueue
  | multipart => MultipartMessage
  | switchDescription => SwitchDescription
  | flowStatsRequest => FlowStatsRequest
  | flowStats => FlowStats
  | aggregateStats => AggregateStats
  | tableStats => TableStats
  | portQueueRequest => PortQueueRequest
  | portStats => PortStats
  | queueStats => QueueStats
  | idRequest => IdRequest
  | groupStats => GroupStats
  | experimenterBody => ExperimenterBody
  | meterConfig => MeterConfig
  | tableFeatures => TableFeatures

instance (T : MessageType) : Message T.Value :=
  match T with
  | oxmField => inferInstanceAs (Message OxmField)
  | pattern => inferInstanceAs (Message Match)
  | hello => inferInstanceAs (Message Hello)
  | packetQueue => inferInstanceAs (Message PacketQueue)
  | multipart => inferInstanceAs (Message MultipartMessage)
  | switchDescription => inferInstanceAs (Message SwitchDescription)
  | flowStatsRequest => inferInstanceAs (Message FlowStatsRequest)
  | flowStats => inferInstanceAs (Message FlowStats)
  | aggregateStats => inferInstanceAs (Message AggregateStats)
  | tableStats => inferInstanceAs (Message TableStats)
  | portQueueRequest => inferInstanceAs (Message PortQueueRequest)
  | portStats => inferInstanceAs (Message PortStats)
  | queueStats => inferInstanceAs (Message QueueStats)
  | idRequest => inferInstanceAs (Message IdRequest)
  | groupStats => inferInstanceAs (Message GroupStats)
  | experimenterBody => inferInstanceAs (Message ExperimenterBody)
  | meterConfig => inferInstanceAs (Message MeterConfig)
  | tableFeatures => inferInstanceAs (Message TableFeatures)

/-- All in a value that declares its length in 16 bits, at any depth, the value itself included if
it does. -/
def parts : (T : MessageType) → T.Value → List SizedPart
  | pattern => fun m => [Match.sizedPart m]
  | hello => Hello.parts
  | packetQueue => PacketQueue.parts
  | multipart => MultipartMessage.parts
  | flowStatsRequest => fun r => [(FlowStatsRequest.pattern r).sizedPart]
  | flowStats => FlowStats.parts
  | groupStats => GroupStats.parts
  | meterConfig => MeterConfig.parts
  | tableFeatures => TableFeatures.parts
  | _ => fun _ => []

/-- The matches in a value, the value itself included if it is one. -/
def patterns : (T : MessageType) → T.Value → List Match
  | pattern => fun m => [m]
  | multipart => fun m => (MultipartMessage.bodies m).flatMap Body.patterns
  | flowStatsRequest => fun r => [FlowStatsRequest.pattern r]
  | flowStats => fun s => [FlowStats.pattern s]
  | _ => fun _ => []

/-- Values of all types account for all in them that declares its length. -/
theorem accounts (T : MessageType) {a : T.Value} (h : ∀ m ∈ T.patterns a, m.span ≤ 65535) :
    Writer.Accounts (Message.write a) (Message.size a) (T.parts a) := by
  cases T with
  | oxmField => exact .of_spans (OxmField.spans_write a)
  | pattern => exact Match.accounts (h _ (List.mem_singleton_self _))
  | hello => exact Hello.accounts a
  | packetQueue => exact PacketQueue.accounts a
  | multipart => exact MultipartMessage.accounts h
  | switchDescription => exact .of_spans (SwitchDescription.spans_write a)
  | flowStatsRequest => exact FlowStatsRequest.accounts (h _ (List.mem_singleton_self _))
  | flowStats => exact FlowStats.accounts (h _ (List.mem_singleton_self _))
  | aggregateStats => exact .of_spans (AggregateStats.agree a (Cursor.start []) []).spans
  | tableStats => exact .of_spans (TableStats.agree a (Cursor.start []) []).spans
  | portQueueRequest => exact .of_spans (PortQueueRequest.agree a (Cursor.start []) []).spans
  | portStats => exact .of_spans (PortStats.agree a (Cursor.start []) []).spans
  | queueStats => exact .of_spans (QueueStats.agree a (Cursor.start []) []).spans
  | idRequest => exact .of_spans (IdRequest.agree a (Cursor.start []) []).spans
  | groupStats => exact GroupStats.accounts a
  | experimenterBody => exact .of_spans (ExperimenterBody.agree a (Cursor.start [])).spans
  | meterConfig => exact MeterConfig.accounts a
  | tableFeatures => exact TableFeatures.accounts a

/-- **Declared, computed and written sizes agree**, for the values of all types whose matches have a
length that fits 16 bits, and for all lists of elements of all families.  What is written has the
size that is computed.  All in it that declares a length, at any depth, is written in its own
size under its own length.  Nothing but a length that does not fit is refused, and it is refused
wherever it is. -/
theorem encode_accounts :
    (∀ (T : MessageType) (a : T.Value), (∀ m ∈ T.patterns a, m.span ≤ 65535) →
      (∀ bs, Message.encode a = .ok bs →
        bs.length = Message.size a ∧ ∀ p ∈ T.parts a, p.WrittenIn bs) ∧
      (∀ e, Message.encode a = .error e →
        ∃ p ∈ T.parts a, 65535 < p.declared ∧ e = .lengthOverflow p.what p.declared) ∧
      ((∃ e, Message.encode a = .error e) ↔ ∃ p ∈ T.parts a, 65535 < p.declared)) ∧
    ∀ (F : Family) (es : List F.Member),
      (∀ bs, (Element.writeList es).encode = .ok bs →
        bs.length = Element.listLength es ∧ ∀ p ∈ es.flatMap F.parts, p.WrittenIn bs) ∧
      (∀ e, (Element.writeList es).encode = .error e →
        ∃ p ∈ es.flatMap F.parts, 65535 < p.declared ∧
          e = .lengthOverflow p.what p.declared) ∧
      ((∃ e, (Element.writeList es).encode = .error e) ↔
        ∃ p ∈ es.flatMap F.parts, 65535 < p.declared) := by
  constructor
  · intro T a h
    have haccounts := T.accounts h
    exact ⟨haccounts.of_ok, haccounts.of_error, haccounts.exists_error_iff⟩
  · intro F es
    have haccounts := F.accounts_writeList es
    exact ⟨haccounts.of_ok, haccounts.of_error, haccounts.exists_error_iff⟩

/-- An element of a hello with a body of `n` bytes, whatever the length that it came with. -/
def wideElement (n : Nat) : HelloElement := .unknown 9 4 (Bytes.zeros n)

theorem declared_wideElement (n : Nat) : (Element.sizedPart (wideElement n)).declared = 4 + n := by
  change 4 + (Bytes.zeros n).length = 4 + n
  rw [Bytes.length_zeros]

/-- A reply of two flow entries, with actions in an instruction of the first one, accounts for all
of them, and a body that leaves its header no room in 16 bits is refused. -/
theorem encode_accounts_someReply :
    (∃ bs, Message.encode MultipartMessage.someReply = .ok bs ∧ bs.length = 176 ∧
      MultipartMessage.someReply.parts.length = 9 ∧
      ∀ p ∈ MultipartMessage.someReply.parts, p.WrittenIn bs) ∧
    ∃ e, (Element.writeList [wideElement 65532]).encode = .error e := by
  obtain ⟨hmessages, hlists⟩ := encode_accounts
  have hpatterns : ∀ m ∈ MessageType.multipart.patterns MultipartMessage.someReply,
      m.span ≤ 65535 := by
    decide
  obtain ⟨hok, -, hfails⟩ := hmessages .multipart MultipartMessage.someReply hpatterns
  constructor
  · have hfits : ¬ ∃ p ∈ MessageType.multipart.parts MultipartMessage.someReply,
        65535 < p.declared := by
      decide
    rcases hencode : Message.encode MultipartMessage.someReply with e | bs
    · exact absurd (hfails.mp ⟨e, hencode⟩) hfits
    · obtain ⟨hlen, hparts⟩ := hok bs hencode
      exact ⟨bs, rfl, hlen, rfl, hparts⟩
  · refine (hlists .helloElement [wideElement 65532]).2.2.mpr
      ⟨Element.sizedPart (wideElement 65532), List.mem_cons_self .., ?_⟩
    rw [declared_wideElement]
    decide

end MessageType
end OpenFlow
