import OpenFlow.Proofs.Element.RoundTrip
import OpenFlow.Proofs.Message.Header
import OpenFlow.Proofs.Multipart.Body
import OpenFlow.Proofs.Multipart.Region
import OpenFlow.Proofs.Wire.Message

/-!
# Multipart messages, written and read back

The bodies of a message have the shape that its type code and its direction decide.
Bodies of a shape with an end of its own may follow each other; a body that goes on to
the end of the message has to be the only one, and a body without bytes cannot be told
from none.

Main definitions:

* `MultipartMessage.shape`: the shape of the bodies of a message.
* `MultipartMessage.WellFormed`: a message that its wire form determines.

Main statement:

* `MultipartMessage.decode_encode_append`: a well-formed message is written, in as many bytes as
  its size says, and decoded from them, whatever follows.
-/

namespace OpenFlow

namespace Body

variable {ctx : Context}

/-! ## Shapes -/

/-- Two bodies of one shape. -/
inductive SameShape : Body → Body → Prop
  | empty : SameShape empty empty
  | description {d d'} : SameShape (description d) (description d')
  | flowStatsRequest {r r'} : SameShape (flowStatsRequest r) (flowStatsRequest r')
  | flowStats {s s'} : SameShape (flowStats s) (flowStats s')
  | aggregateStatsRequest {r r'} : SameShape (aggregateStatsRequest r) (aggregateStatsRequest r')
  | aggregateStats {s s'} : SameShape (aggregateStats s) (aggregateStats s')
  | tableStats {s s'} : SameShape (tableStats s) (tableStats s')
  | portStatsRequest {r r'} : SameShape (portStatsRequest r) (portStatsRequest r')
  | portStats {s s'} : SameShape (portStats s) (portStats s')
  | queueStatsRequest {r r'} : SameShape (queueStatsRequest r) (queueStatsRequest r')
  | queueStats {s s'} : SameShape (queueStats s) (queueStats s')
  | groupStatsRequest {r r'} : SameShape (groupStatsRequest r) (groupStatsRequest r')
  | groupStats {s s'} : SameShape (groupStats s) (groupStats s')
  | meterRequest {r r'} : SameShape (meterRequest r) (meterRequest r')
  | meterConfig {m m'} : SameShape (meterConfig m) (meterConfig m')
  | tableFeatures {t t'} : SameShape (tableFeatures t) (tableFeatures t')
  | experimenter {e e'} : SameShape (experimenter e) (experimenter e')
  | unknown {bytes bytes'} : SameShape (unknown bytes) (unknown bytes')

/-- A body is read like any other body of its shape. -/
theorem SameShape.read_eq {a b : Body} (h : SameShape a b) : read ctx a = read ctx b := by
  cases h <;> rfl

/-- How far a body goes is judged as for any other body of its shape. -/
theorem SameShape.span?_eq {a b : Body} (h : SameShape a b) (bytes : Bytes) (left : Nat) :
    span? a bytes left = span? b bytes left := by
  cases h <;> rfl

theorem SameShape.isOpen_iff {a b : Body} (h : SameShape a b) : a.IsOpen ↔ b.IsOpen := by
  cases h <;> rfl

/-- The bodies that have a size of zero are those of the shape without one. -/
theorem size_pos {b : Body} (h : b.WellFormed) (hne : b ≠ empty) : 0 < b.size := by
  cases b with
  | empty => exact absurd rfl hne
  | unknown bytes => exact List.length_pos_iff.mpr h
  | flowStatsRequest r | aggregateStatsRequest r =>
    exact Nat.add_pos_left (m := FlowStatsRequest.fixedSize) (by decide) _
  | flowStats s =>
    exact Nat.add_pos_left (Nat.add_pos_left (m := FlowStats.fixedSize) (by decide) _) _
  | groupStats s => exact Nat.add_pos_left (m := GroupStats.fixedSize) (by decide) _
  | meterConfig m => exact Nat.add_pos_left (m := MeterConfig.fixedSize) (by decide) _
  | tableFeatures t => exact Nat.add_pos_left (m := TableFeatures.fixedSize) (by decide) _
  | experimenter e => exact Nat.add_pos_left (m := 8) (by decide) _
  | _ => simp only [size]; decide

/-! ## Bodies in a row -/

/-- Bodies that may follow each other in one message, which are of the shape of a blank one.  A
body without bytes cannot be told from none, and one that goes on to the end is the only one. -/
structure Row (blank : Body) (bodies : List Body) : Prop where
  sameShape : ∀ b ∈ bodies, SameShape blank b
  wellFormed : ∀ b ∈ bodies, b.WellFormed
  eq_nil_of_empty : blank = empty → bodies = []
  length_le_of_isOpen : blank.IsOpen → bodies.length ≤ 1

namespace Row

variable {blank b : Body} {bodies : List Body}

theorem tail (h : Row blank (b :: bodies)) : Row blank bodies where
  sameShape b' hb' := h.sameShape b' (List.mem_cons_of_mem b hb')
  wellFormed b' hb' := h.wellFormed b' (List.mem_cons_of_mem b hb')
  eq_nil_of_empty hempty := absurd (h.eq_nil_of_empty hempty) (List.cons_ne_nil _ _)
  length_le_of_isOpen hopen := Nat.le_of_succ_le (h.length_le_of_isOpen hopen)

theorem head_ne_empty (h : Row blank (b :: bodies)) : b ≠ empty := by
  rintro rfl
  have hsame := h.sameShape empty (List.mem_cons_self ..)
  cases hsame
  exact absurd (h.eq_nil_of_empty rfl) (List.cons_ne_nil _ _)

/-- A body that goes on to the end has all the bytes that are left. -/
theorem total_eq_of_isOpen (h : Row blank (b :: bodies)) (hopen : b.IsOpen) :
    total size (b :: bodies) = b.size := by
  have hsame := h.sameShape b (List.mem_cons_self ..)
  have hone := h.length_le_of_isOpen (hsame.isOpen_iff.mpr hopen)
  rw [List.length_cons] at hone
  have hnil : bodies = [] := List.length_eq_zero_iff.mp (by omega)
  rw [hnil, total_cons, total_nil, Nat.add_zero]

end Row

theorem run_readMembers_zero (blank : Body) (allowance : Option Nat) (bytes : Bytes)
    (c : Cursor) : (readMembers ctx blank allowance 0 bytes).run c = ⟨.ok [], c, 0⟩ := by
  rw [readMembers_eq, if_pos (Or.inl rfl)]
  rfl

/-- One step of reading bodies: a body is read from the bytes that it is judged to have, and the
others follow. -/
theorem run_readMembers_of_span {blank b : Body} {left n : Nat} {bytes : Bytes} {c c' : Cursor}
    {bodies : List Body} (hspan : span? blank bytes left = some n) (hpos : 0 < n) (hle : n ≤ left)
    (hlen : n ≤ bytes.length)
    (hread : (read ctx blank).run (Cursor.start (bytes.take n)) = ⟨.ok b, c', 0⟩)
    (hrest : (readMembers ctx blank none (left - n) (bytes.drop n)).run c = ⟨.ok bodies, c, 0⟩) :
    (readMembers ctx blank none left bytes).run c = ⟨.ok (b :: bodies), c, 0⟩ := by
  have hleft : ¬ (left = 0 ∨ (none : Option Nat) = some 0) := by
    rintro (h | h)
    · omega
    · exact nomatch h
  have hattempt := Reader.run_attempt_within (bytes.take n) (read ctx blank) c
  rw [hread] at hattempt
  rw [readMembers_eq, if_neg hleft, next?_of_span? hspan, if_pos ⟨hpos, hle, hlen⟩]
  simp only
  rw [Reader.run_bind_of_quiet hattempt, Element.run_goOn_ok, Option.map_none, hrest]
  rfl

/-- The bodies at the front of some bytes, if they are all that is left of their message. -/
theorem run_readMembers (hreg : ctx.registries = .standard) (hlimit : ctx.elementLimit = none)
    {blank : Body} {bodies : List Body} (h : Row blank bodies) (hlt : total size bodies < 65536)
    {bs : Bytes} (hbs : (Writer.each write bodies).encode = .ok bs) (tail : Bytes) (c : Cursor) :
    (readMembers ctx blank none (total size bodies) (bs ++ tail)).run c = ⟨.ok bodies, c, 0⟩ := by
  induction bodies generalizing bs with
  | nil => exact run_readMembers_zero blank none _ c
  | cons b bodies ih =>
    obtain ⟨xs, hxs, ys, hys, rfl⟩ := Writer.encode_each_cons_eq_ok_iff.mp hbs
    have hmem : b ∈ b :: bodies := List.mem_cons_self ..
    have hb := h.wellFormed b hmem
    have hsame := h.sameShape b hmem
    have hagree := agree hreg hlimit hb (fun _ => Nat.lt_of_le_of_lt (le_total_of_mem hmem) hlt)
      (Cursor.start (xs ++ []))
    have hlen := hagree.spans.length_eq hxs
    have hread := hagree.run_eq hxs (Cursor.Faces.start _)
    have hspan : span? blank (xs ++ ys ++ tail) (total size (b :: bodies)) = some b.size := by
      rw [hsame.span?_eq, List.append_assoc]
      exact span?_eq_some hb hxs (ys ++ tail) h.total_eq_of_isOpen
    -- The body is in front, and behind its bytes and its share of what is left are the others.
    have htake : (xs ++ ys ++ tail).take b.size = xs := by
      rw [List.append_assoc, List.take_left' hlen]
    have hdrop : (xs ++ ys ++ tail).drop b.size = ys ++ tail := by
      rw [List.append_assoc, List.drop_left' hlen]
    have hleft : total size (b :: bodies) - b.size = total size bodies :=
      Nat.add_sub_cancel_left _ _
    have hfits : b.size ≤ (xs ++ ys ++ tail).length := by
      rw [List.length_append, List.length_append, hlen]
      omega
    rw [List.append_nil, ← hsame.read_eq, ← htake] at hread
    have hrest := ih h.tail (Nat.lt_of_le_of_lt (Nat.le_add_left _ _) hlt) hys
    refine run_readMembers_of_span hspan (size_pos hb h.head_ne_empty) (le_total_of_mem hmem)
      hfits hread ?_
    rw [hdrop, hleft]
    exact hrest

/-- **The bodies of a message are read back**, where the direction is known. -/
theorem agree_list (hreg : ctx.registries = .standard) (hlimit : ctx.elementLimit = none)
    {d : Direction} (hdir : ctx.direction = some d) {code : UInt16} {bodies : List Body}
    (h : Row (blank ctx d code) bodies) (hlt : total size bodies < 65536) (c : Cursor)
    (tail : Bytes) :
    Agree (Writer.each write bodies) (readList ctx code (total size bodies)) c
      (total size bodies) tail bodies := by
  have hspans : Writer.Spans (Writer.each write bodies) (total size bodies) := by
    refine Writer.Spans.each fun b hb => ?_
    have hsize := Nat.lt_of_le_of_lt (le_total_of_mem hb) hlt
    exact (agree hreg hlimit (h.wellFormed b hb) (fun _ => hsize) (Cursor.start [])).spans
  obtain ⟨bs, hbs, hlen⟩ := hspans
  refine ⟨bs, hbs, hlen, fun hc => ?_⟩
  have hmembers := run_readMembers hreg hlimit h hlt hbs tail c
  rw [← hc.rest_eq] at hmembers
  have hend := hc.pos_add_le
  rw [hlen] at hend
  unfold readList
  rw [hdir, hlimit]
  simp only
  rw [Reader.run_cursor_bind, Reader.run_bind_of_quiet hmembers,
    Cursor.advanceWithin_eq_advance hend]
  rfl

end Body

namespace MultipartMessage

/-! ## Messages -/

/-- The blank body that stands for the bodies of a message. -/
def shape (m : MultipartMessage) : Body := Body.blank {} m.direction m.code

/-- A message that its wire form determines. -/
structure WellFormed (m : MultipartMessage) : Prop where
  row : Body.Row m.shape m.bodies
  size_lt : m.size < 65536

variable {ctx : Context} {m : MultipartMessage}

instance (m : MultipartMessage) : Writer.Uniform m.write :=
  inferInstanceAs (Writer.Uniform (_ ++ Writer.u16 _ ++ Writer.u16 _ ++ Writer.zeros 4
    ++ Writer.each Body.write _))

/-- **A well-formed message is read back**, whichever direction the context is about. -/
theorem agree (hreg : ctx.registries = .standard) (hlimit : ctx.elementLimit = none)
    (h : m.WellFormed) (c : Cursor) (tail : Bytes) : Agree m.write (read ctx) c m.size tail m := by
  have hlength : (UInt16.ofNat m.size).toNat = m.size := UInt16.toNat_ofNat_of_lt' h.size_lt
  have hfixed : ¬ m.size < fixedSize := Nat.not_lt.mpr (Nat.le_add_right _ _)
  have hbodies : m.size - fixedSize = total Body.size m.bodies := Nat.add_sub_cancel_left _ _
  have hblank : Body.blank { ctx with direction := some m.direction } m.direction m.code =
      m.shape := by
    unfold shape Body.blank
    rw [hreg]
  have hreg' : Context.registries { ctx with direction := some m.direction } = .standard := hreg
  have hlt := Nat.lt_of_le_of_lt (Nat.le_add_left (total Body.size m.bodies) fixedSize) h.size_lt
  have hlist := Body.agree_list hreg' hlimit rfl (hblank ▸ h.row) hlt
  have hsize : MessageHeader.size + (2 + (2 + (4 + total Body.size m.bodies))) = m.size := by
    change 8 + (2 + (2 + (4 + _))) = 16 + _
    omega
  unfold write read
  simp only [Writer.append_assoc]
  refine Agree.of_size_eq (MessageHeader.agree_announce ?_ h.size_lt ?_) hsize
  · exact Nat.le_trans (by decide) (Nat.le_add_right fixedSize _)
  · rw [MessageHeader.kind?_announced, Direction.ofKind?_kind]
    simp only [MessageHeader.announced, hlength, if_neg hfixed, hbodies]
    exact Agree.u16 (Agree.u16 (Agree.zeros (Agree.map (hlist _ tail))))

/-- **Multipart messages are written and read back**: a well-formed message is encoded, in as
many bytes as its size says, and decoded from them, whatever follows. -/
theorem decode_encode_append (ctx : Context) (hreg : ctx.registries = .standard)
    (hlimit : ctx.elementLimit = none) (h : m.WellFormed) :
    ∃ b, Message.encode m = .ok b ∧ b.length = Message.size m ∧
      ∀ s, Message.decode ctx (b ++ s) = .ok (m, b.length) := by
  obtain ⟨b, hb, hlen, hdecode⟩ := Message.decode_of_agree (agree hreg hlimit h)
  refine ⟨b, hb, hlen, fun s => ?_⟩
  rw [hlen]
  exact hdecode s

/-- Statistics of a flow entry with a match and instructions. -/
def someFlowStats : FlowStats where
  priority := 5
  pattern := Match.all.set Element.ipv4Type
  instructions := Element.someInstructions

/-- Statistics of two flow entries, the second one of which matches all packets and does
nothing. -/
def someReply : MultipartMessage :=
  ⟨.reply, 7, 1, 0, [.flowStats someFlowStats, .flowStats {}]⟩

theorem wellFormed_someFlowStats : someFlowStats.WellFormed where
  pattern :=
    { basic := fun f hf => by
        obtain rfl := List.mem_singleton.mp hf
        exact ⟨.ethType, rfl⟩
      span_lt := by decide }
  instructions := Element.wellFormed_someInstructions

theorem row_someReply : Body.Row someReply.shape someReply.bodies where
  sameShape := List.forall_mem_cons.mpr ⟨.flowStats, List.forall_mem_singleton.mpr .flowStats⟩
  wellFormed := by
    have hblank : FlowStats.WellFormed {} := ⟨⟨nofun, by decide⟩, nofun⟩
    exact List.forall_mem_cons.mpr ⟨wellFormed_someFlowStats, List.forall_mem_singleton.mpr hblank⟩
  eq_nil_of_empty := nofun
  length_le_of_isOpen := nofun

/-- A reply, decoded where a request is expected and nothing unknown is passed over. -/
theorem decode_encode_append_someReply :
    ∃ b, Message.encode someReply = .ok b ∧ b.length = 176 ∧
      ∀ s, Message.decode { direction := some .request, unknownFields := .reject } (b ++ s) =
        .ok (someReply, b.length) :=
  decode_encode_append _ rfl rfl ⟨row_someReply, by decide⟩

end MultipartMessage
end OpenFlow
