import OpenFlow.Multipart.Wire
import OpenFlow.Proofs.Element.Framing
import OpenFlow.Proofs.Match.Walk
import OpenFlow.Proofs.Wire.Twin

/-!
# How far a record goes

A record that declares its own length is read from as many bytes, as a rule, and from these
only: the same bytes give the same record wherever they stand, and the cursor goes to their
end, or to the end of the buffer if that comes first.  The exceptions are records whose
length does not fit what they are made of.  Queues and the features of tables refuse a length
that is too short for their fixed part; the others go on to the end of the fixed part, and
statistics of a flow entry to the end of the match.  Statistics of a group stop behind the
last whole bucket.

Main definitions:

* `SizedRecord`: the records that declare their own length.
* `SizedRecord.declared`, `SizedRecord.reach`: the length that is declared, and how many
  bytes are read.

Main statements:

* `Element.local_readList`: a list is read from its region only.
* `Match.twin_read`: a match is read from the room that it takes.
* `SizedRecord.reach_eq_declared_iff`: a record reaches as far as it declares exactly if its
  length covers what it is made of.
* `SizedRecord.read_reach`: a record is read from as many bytes as it reaches.
-/

namespace OpenFlow

open Reader (Twin Local Within Stays)

variable {ctx : Context}

/-! ## Lists of elements -/

namespace Element

variable {ε : Type} [Element ε] [Framed ε]

omit [Element ε] [Framed ε] in
theorem stays_goOn {rest : Reader (List ε)} (h : rest.Stays) (result : Except Error ε) :
    (goOn rest result).Stays := by
  cases result with
  | ok e => exact .bind h fun members => .pure (e :: members)
  | error e =>
    change (if e.isTruncation then pure [] else Reader.fail e : Reader (List ε)).Stays
    by_cases htruncation : e.isTruncation = true
    · rw [if_pos htruncation]
      exact .pure []
    · rw [if_neg htruncation]
      exact .fail e

/-- The elements of a region do not depend on where the cursor stands. -/
theorem stays_readMembers (ctx : Context) (allowance : Option Nat) (region : Bytes) :
    (readMembers ctx allowance region : Reader (List ε)).Stays := by
  induction hn : region.length using Nat.strongRecOn generalizing allowance region with
  | _ n ih =>
    subst hn
    rw [readMembers_eq]
    cases hpeek : Bytes.peekHeader? region with
    | none => exact .pure []
    | some header =>
      obtain ⟨code, declared⟩ := header
      by_cases hallow : allowance = some 0
      · simp only [if_pos hallow]
        exact .pure []
      by_cases hlow : declared.toNat < headerSize ε
      · simp only [if_neg hallow, if_pos hlow]
        exact .fail _
      by_cases hover : region.length < declared.toNat
      · simp only [if_neg hallow, if_neg hlow, if_pos hover]
        exact .pure []
      simp only [if_neg hallow, if_neg hlow, if_neg hover]
      refine .bind (.attempt (.within _ _)) fun result => stays_goOn ?_ result
      have hheader := Framed.commonHeaderSize_le (ε := ε)
      have hroom := Framed.le_occupied (ε := ε) declared.toNat
      have hfour : 0 < commonHeaderSize := by decide
      refine ih _ ?_ _ _ rfl
      rw [List.length_drop]
      omega

/-- **A list is read from its region only**, and the cursor goes to the end of it. -/
theorem local_readList (ctx : Context) (n : Nat) :
    Local n (readList ctx n : Reader (List ε)) := by
  intro c c'
  refine .of_run fun h _ _ => .cursor ?_
  rw [← h.take_rest]
  exact .of_within (stays_readMembers ctx ctx.elementLimit _).within_zero rfl rfl

/-- At the end of a buffer there are no elements. -/
theorem twin_readList_of_remaining_eq_zero {k k' n : Nat} {c c' : Cursor} (h : c.remaining = 0)
    (h' : c'.remaining = 0) :
    Twin n (readList ctx k : Reader (List ε)) (readList ctx k') c c' := by
  have hrun {d : Cursor} (hd : d.remaining = 0) (hle : d.pos ≤ d.size) (j : Nat) :
      (readList ctx j : Reader (List ε)).run d = ⟨.ok [], d.advanceWithin n, 0⟩ := by
    have hrest : d.rest = [] := List.eq_nil_of_length_eq_zero (d.length_rest_eq_remaining.trans hd)
    have hend : d.advanceWithin j = d.advanceWithin n := by
      unfold Cursor.remaining at hd
      ext1
      · change min (d.pos + j) d.size = min (d.pos + n) d.size
        omega
      · rfl
      · change d.rest.drop j = d.rest.drop n
        rw [hrest, List.drop_nil, List.drop_nil]
    rw [run_readList, hrest, List.take_nil, run_readMembers_of_length_lt (by decide), ← hend]
  intro halike es hes
  rw [hrun h halike.pos_le] at hes
  cases hes
  exact ⟨0, hrun h halike.pos_le k, hrun h' halike.pos_le' k'⟩

end Element

/-! ## Matches -/

namespace Match

namespace FixedLayout

variable {m : Match} {w flag : UInt32} {t : FieldType}

theorem within_setUnlessWild (value : OxmValue) : Within 0 (setUnlessWild m w flag t value) := by
  unfold setUnlessWild
  by_cases hexact : Wildcards.isExact w flag = true
  · rw [if_pos hexact]
    exact .lift _
  · rw [if_neg hexact]
    exact .pure m

theorem within_setInverse (value ignored : OxmValue) : Within 0 (setInverse m t value ignored) :=
  .lift _

theorem within_readEthernet : Within 12 (readEthernet m t) :=
  .bind (Local.bytes 6).within fun _ => .bind (Local.bytes 6).within fun _ =>
    within_setInverse _ _

theorem within_readIpv4 : Within 8 (readIpv4 m t) := by
  refine .bind Local.u32.within fun address => .bind (n := 0) Local.u32.within fun ignored => ?_
  by_cases hzero : address = 0
  · rw [if_pos hzero]
    exact .pure m
  · rw [if_neg hzero]
    exact within_setInverse _ _

theorem within_readTransport {source destination : FieldType} :
    Within 28 (readTransport m w source destination) :=
  .bind Local.u16.within fun _ => .bind (within_setUnlessWild _) fun _ =>
  .bind Local.u16.within fun _ => .bind (within_setUnlessWild _) fun _ =>
  .bind Local.u32.within fun _ => .bind (within_setUnlessWild _) fun _ =>
  .bind Local.u8.within fun _ => .bind (within_setUnlessWild _) fun _ =>
  .bind (Local.bytes 3).within fun _ => .bind Local.u64.within fun _ =>
  .bind Local.u64.within fun _ => within_setInverse _ _

theorem within_readNetwork : Within 46 (readNetwork m w) := by
  refine .bind Local.u8.within fun _ => .bind (within_setUnlessWild _) fun _ =>
    .bind Local.u8.within fun protocol => .bind (within_setUnlessWild _) fun m =>
    .bind within_readIpv4 fun _ => .bind (n := 28) within_readIpv4 fun m => ?_
  by_cases hexact : Wildcards.isExact w Wildcards.protocol = true
  · rw [if_pos hexact]
    rcases portFields? protocol with _ | ⟨source, destination⟩
    · exact .pure m
    · exact within_readTransport
  · rw [if_neg hexact]
    exact .pure m

/-- A match of the fixed layout is read from its fixed part. -/
theorem within_readBody : Within (size - headerSize) readBody := by
  refine .bind Local.u32.within fun _ => .bind Local.u32.within fun w =>
    .bind (within_setUnlessWild _) fun _ => .bind within_readEthernet fun _ =>
    .bind within_readEthernet fun _ => .bind Local.u16.within fun _ =>
    .bind (within_setUnlessWild _) fun _ => .bind Local.u8.within fun _ =>
    .bind (within_setUnlessWild _) fun _ => .bind Local.u8.within fun _ =>
    .bind Local.u16.within fun etherType => .bind (n := 46) (within_setUnlessWild _) fun m => ?_
  by_cases hnetwork : (Wildcards.isExact w Wildcards.etherType && hasNetwork etherType) = true
  · rw [if_pos hnetwork]
    exact within_readNetwork
  · rw [if_neg hnetwork]
    exact .pure m

end FixedLayout

/-- The room that the match in front of some bytes takes: a match of fields is filled up, and one of
the fixed layout is not. -/
def room (bytes : Bytes) : Nat :=
  match Bytes.peekHeader? bytes with
  | some (code, length) => if code = oxmCode then align8 length.toNat else length.toNat
  | none => 0

/-- **A match is read from the room that it takes**, and the cursor goes to the end of it. -/
theorem twin_read (ctx : Context) (c c' : Cursor) :
    Twin (room c.rest) (read ctx) (read ctx) c c' := by
  refine .of_run fun halike m hm => ?_
  obtain ⟨code, declared, hpeek, hheader, -⟩ := cases_of_run_read hm
  have hroom : room c.rest =
      if code = oxmCode then align8 declared.toNat else declared.toNat := by
    unfold room
    rw [hpeek]
  have halign := le_align8 declared.toNat
  have hle : declared.toNat ≤ room c.rest := by
    rw [hroom]
    split
    · exact halign
    · exact Nat.le_refl _
  have hsum : 2 + (2 + (room c.rest - headerSize)) = room c.rest := by
    change 4 ≤ declared.toNat at hheader
    change 2 + (2 + (room c.rest - 4)) = room c.rest
    omega
  refine .of_size_eq (.cursor (.bind (Local.u16 c c') fun code' w hcode =>
    .bind (Local.u16 _ _) fun declared' w' hdeclared => ?_)) hsum
  obtain ⟨hpeek', -⟩ := Reader.peekHeader?_of_run hcode hdeclared
  cases hpeek.symm.trans hpeek'
  have hpassed (d : Cursor) : d.advanceWithin (room c.rest) =
      ((d.advanceWithin 2).advanceWithin 2).advanceWithin (room c.rest - headerSize) := by
    rw [Cursor.advanceWithin_advanceWithin, Cursor.advanceWithin_advanceWithin, hsum]
  rw [if_neg (Nat.not_lt.mpr hheader), if_neg (Nat.not_lt.mpr hheader)]
  by_cases hoxm : code = oxmCode
  · rw [if_pos hoxm] at hroom
    rw [if_pos hoxm, if_pos hoxm, ← hroom]
    refine .cursor ?_
    have hregion : ((c.advanceWithin 2).advanceWithin 2).rest.take (declared.toNat - headerSize) =
        ((c'.advanceWithin 2).advanceWithin 2).rest.take (declared.toNat - headerSize) := by
      rw [← hsum] at halike
      exact (halike.advanceWithin.advanceWithin.mono (Nat.sub_le_sub_right hle _)).take_rest
    rw [← hregion]
    refine .moveTo (fun _ fields hfields => ?_) (hpassed c) (hpassed c')
    obtain ⟨result, n, w, hrun⟩ := exists_run_readFields ctx
      (((c.advanceWithin 2).advanceWithin 2).rest.take (declared.toNat - headerSize))
    rw [hrun] at hfields
    obtain rfl : result = .ok fields := hfields
    exact ⟨_, _, w, hrun _, hrun _⟩
  · rw [if_neg hoxm] at hroom
    rw [if_neg hoxm, if_neg hoxm]
    by_cases hfixed : code = fixedCode
    · rw [if_pos hfixed, if_pos hfixed]
      by_cases hshort : declared.toNat < FixedLayout.size
      · rw [if_pos hshort]
        exact .fail _
      · rw [if_neg hshort, if_neg hshort, ← hroom]
        refine .of_within (FixedLayout.within_readBody.mono ?_) (hpassed c) (hpassed c')
        omega
    · rw [if_neg hfixed]
      exact .fail _

end Match

/-! ## Records -/

/-- The records that declare their own length. -/
inductive SizedRecord where
  | packetQueue
  | flowStats
  | groupStats
  | meterConfig
  | tableFeatures
  deriving DecidableEq, Repr

namespace SizedRecord

/-- The values of a record. -/
def Value : SizedRecord → Type
  | packetQueue => PacketQueue
  | flowStats => FlowStats
  | groupStats => GroupStats
  | meterConfig => MeterConfig
  | tableFeatures => TableFeatures

instance (R : SizedRecord) : Message R.Value :=
  match R with
  | packetQueue => inferInstanceAs (Message PacketQueue)
  | flowStats => inferInstanceAs (Message FlowStats)
  | groupStats => inferInstanceAs (Message GroupStats)
  | meterConfig => inferInstanceAs (Message MeterConfig)
  | tableFeatures => inferInstanceAs (Message TableFeatures)

/-- Where in a record its length stands. -/
def lengthAt : SizedRecord → Nat
  | packetQueue => 8
  | _ => 0

/-- The length that the record in front of some bytes declares. -/
def declared (R : SizedRecord) (bytes : Bytes) : Nat :=
  ((Bytes.peekUInt16? (bytes.drop R.lengthAt)).map UInt16.toNat).getD 0

/-- The part of a record that is read whatever its length is. -/
def least (R : SizedRecord) (bytes : Bytes) : Nat :=
  match R with
  | packetQueue => PacketQueue.fixedSize
  | flowStats => FlowStats.fixedSize + Match.room (bytes.drop FlowStats.fixedSize)
  | groupStats => GroupStats.fixedSize
  | meterConfig => MeterConfig.fixedSize
  | tableFeatures => TableFeatures.fixedSize

/-- How many bytes the record in front of some bytes is read from. -/
def reach (R : SizedRecord) (bytes : Bytes) : Nat :=
  match R with
  | groupStats => GroupStats.fixedSize +
      BucketCounter.size * ((groupStats.declared bytes - GroupStats.fixedSize) / BucketCounter.size)
  | _ => max (R.least bytes) (R.declared bytes)

/-- The length that a record declares covers all that is read whatever it is, and, for a group,
whole buckets behind that. -/
def Covers (R : SizedRecord) (bytes : Bytes) : Prop :=
  R.least bytes ≤ R.declared bytes ∧
    (R = groupStats → BucketCounter.size ∣ R.declared bytes - GroupStats.fixedSize)

/-- **A record reaches as far as it declares exactly if its length covers what it is made of.** -/
theorem reach_eq_declared_iff (R : SizedRecord) (bytes : Bytes) :
    R.reach bytes = R.declared bytes ↔ R.Covers bytes := by
  have hmax (m n : Nat) {P : Prop} (hP : P) : max m n = n ↔ m ≤ n ∧ P := by
    constructor
    · intro h
      exact ⟨h ▸ Nat.le_max_left m n, hP⟩
    · intro h
      exact Nat.max_eq_right h.1
  cases R with
  | groupStats =>
    generalize hlength : groupStats.declared bytes = length
    have hiff : 40 + 16 * ((length - 40) / 16) = length ↔
        40 ≤ length ∧ (groupStats = groupStats → 16 ∣ length - 40) := by
      constructor
      · intro h
        exact ⟨by omega, fun _ => ⟨(length - 40) / 16, by omega⟩⟩
      · rintro ⟨hle, hdvd⟩
        obtain ⟨k, hk⟩ := hdvd rfl
        omega
    subst hlength
    exact hiff
  | packetQueue | flowStats | meterConfig | tableFeatures => exact hmax _ _ nofun

/-- A word that was read is in front. -/
theorem peekUInt16?_of_run {c c' : Cursor} {length : UInt16} {w : Nat}
    (h : Reader.u16.run c = ⟨.ok length, c', w⟩) : Bytes.peekUInt16? c.rest = some length := by
  obtain ⟨hsize, rfl, -⟩ := Reader.of_run_word h
  rw [← Cursor.length_rest_eq_remaining] at hsize
  generalize c.rest = ahead at hsize ⊢
  rcases ahead with _ | ⟨b₀, _ | ⟨b₁, ahead⟩⟩
  case cons.cons => rfl
  all_goals
    simp only [List.length_nil, List.length_cons] at hsize
    omega

/-- A length that was read behind some bytes is the one that the record declares. -/
theorem declared_of_run {R : SizedRecord} {c d d' : Cursor} {length : UInt16} {w : Nat}
    (h : Reader.u16.run d = ⟨.ok length, d', w⟩) (hd : d.rest = c.rest.drop R.lengthAt) :
    R.declared c.rest = length.toNat := by
  unfold declared
  rw [← hd, peekUInt16?_of_run h]
  rfl

/-- A queue. -/
theorem twin_packetQueue (ctx : Context) (c c' : Cursor) :
    Twin (packetQueue.reach c.rest) (PacketQueue.read ctx) (PacketQueue.read ctx) c c' := by
  refine .of_size_eq (n := max 16 (packetQueue.declared c.rest)) (.after .u32 fun _ =>
    .after .u32 fun _ => .bind (Local.u16 _ _) fun length w hlength => .after (.skip 6) fun _ =>
      (?_ : Twin (packetQueue.declared c.rest - 16) _ _ _ _)) (by omega)
  have hdeclared : packetQueue.declared c.rest = length.toNat :=
    declared_of_run hlength List.drop_drop
  by_cases hshort : length.toNat < PacketQueue.fixedSize
  · rw [if_pos hshort]
    exact .fail _
  · rw [if_neg hshort, hdeclared]
    exact .map (Element.local_readList ctx _ _ _)

/-- The configuration of a meter. -/
theorem twin_meterConfig (ctx : Context) (c c' : Cursor) :
    Twin (meterConfig.reach c.rest) (MeterConfig.read ctx) (MeterConfig.read ctx) c c' := by
  refine .of_size_eq (n := max 8 (meterConfig.declared c.rest)) (.bind (Local.u16 _ _)
    fun length w hlength => .after .u16 fun _ => .after .u32 fun _ =>
      (?_ : Twin (meterConfig.declared c.rest - 8) _ _ _ _)) (by omega)
  rw [declared_of_run hlength rfl]
  exact .map (Element.local_readList ctx _ _ _)

/-- The features of a table. -/
theorem twin_tableFeatures (ctx : Context) (c c' : Cursor) :
    Twin (tableFeatures.reach c.rest) (TableFeatures.read ctx) (TableFeatures.read ctx) c c' := by
  refine .of_size_eq (n := max 64 (tableFeatures.declared c.rest)) (.bind (Local.u16 _ _)
    fun length w hlength => (?_ : Twin (62 + (tableFeatures.declared c.rest - 64)) _ _ _ _))
    (by omega)
  have hdeclared : tableFeatures.declared c.rest = length.toNat := declared_of_run hlength rfl
  by_cases hshort : length.toNat < TableFeatures.fixedSize
  · rw [if_pos hshort]
    exact .fail _
  · rw [if_neg hshort, hdeclared]
    refine .of_size_eq (.after .u8 fun _ => .after (.skip 5) fun _ => .after (.text 32 _) fun _ =>
      .after .u64 fun _ => .after .u64 fun _ => .after .u32 fun _ => .after .u32 fun _ =>
      .map (Element.local_readList ctx _ _ _)) ?_
    change 1 + (5 + (32 + (8 + (8 + (4 + (4 + (length.toNat - 64))))))) = _
    omega

/-- Statistics of a group. -/
theorem twin_groupStats (c c' : Cursor) :
    Twin (groupStats.reach c.rest) GroupStats.read GroupStats.read c c' := by
  refine .of_size_eq (n := groupStats.reach c.rest) (.bind (Local.u16 _ _) fun length w hlength =>
    .after (.skip 2) fun _ => .after .u32 fun _ => .after .u32 fun _ => .after (.skip 4) fun _ =>
    .after .u64 fun _ => .after .u64 fun _ => .after .u32 fun _ => .after .u32 fun _ =>
      (?_ : Twin (BucketCounter.size * ((groupStats.declared c.rest - GroupStats.fixedSize) /
        BucketCounter.size)) _ _ _ _)) ?_
  · rw [declared_of_run hlength rfl]
    exact .map (Local.times (.bind .u64 fun _ => .map .u64) _ _ _)
  · change 2 + (2 + (4 + (4 + (4 + (8 + (8 + (4 + (4 + _)))))))) = 40 + _
    omega

/-- Statistics of a flow entry.  What its length leaves behind the match counts from where the match
ended, and that is the end of the buffer if it comes first. -/
theorem twin_flowStats (ctx : Context) (c c' : Cursor) :
    Twin (flowStats.reach c.rest) (FlowStats.read ctx) (FlowStats.read ctx) c c' := by
  generalize hroom : Match.room (c.rest.drop 48) = room
  have hreach : flowStats.reach c.rest = max (48 + room) (flowStats.declared c.rest) := by
    rw [← hroom]
    rfl
  refine .of_run fun halike _ _ => .cursor (.of_size_eq (.bind (Local.u16 _ _)
    fun length w hlength => .after .u8 fun _ => .after (.skip 1) fun _ => .after .u32 fun _ =>
    .after .u32 fun _ => .after .u16 fun _ => .after .u16 fun _ => .after .u16 fun _ =>
    .after .u16 fun _ => .after (.skip 4) fun _ => .after .u64 fun _ => .after .u64 fun _ =>
    .after .u64 fun _ => .bind (Match.twin_read ctx _ _) fun pattern v hpattern => .cursor
      (?_ : Twin (flowStats.declared c.rest - (48 + room)) _ _ _ _)) ?_)
  · rw [declared_of_run hlength rfl]
    simp only [Cursor.rest_advanceWithin, Cursor.advanceWithin_advanceWithin, Nat.reduceAdd, hroom]
    have hmin : min (48 + room) c.remaining = min (48 + room) c'.remaining :=
      (halike.mono (hreach ▸ Nat.le_max_left _ _)).min_remaining_eq
    by_cases hfull : 48 + room ≤ c.remaining
    · have hpassed {d : Cursor} (hd : 48 + room ≤ d.remaining) :
          (d.advanceWithin (48 + room)).pos - d.pos = 48 + room := by
        change min (d.pos + (48 + room)) d.size - d.pos = 48 + room
        change 48 + room ≤ d.size - d.pos at hd
        omega
      rw [hpassed hfull, hpassed (by omega)]
      exact .map (Element.local_readList ctx _ _ _)
    · have hend {d : Cursor} (hd : d.remaining < 48 + room) :
          (d.advanceWithin (48 + room)).remaining = 0 := by
        change d.size - min (d.pos + (48 + room)) d.size = 0
        change d.size - d.pos < 48 + room at hd
        omega
      exact .map (Element.twin_readList_of_remaining_eq_zero (hend (by omega)) (hend (by omega)))
  · simp only [Cursor.rest_advanceWithin, List.drop_drop, Nat.reduceAdd, hroom, hreach,
      ← Nat.add_assoc]
    omega

/-- **A record is read from as many bytes as it reaches**, and the cursor goes to the end of
them. -/
theorem twin_read (R : SizedRecord) (ctx : Context) (c c' : Cursor) :
    Twin (R.reach c.rest) (Message.read ctx : Reader R.Value) (Message.read ctx) c c' := by
  cases R with
  | packetQueue => exact twin_packetQueue ctx c c'
  | flowStats => exact twin_flowStats ctx c c'
  | groupStats => exact twin_groupStats c c'
  | meterConfig => exact twin_meterConfig ctx c c'
  | tableFeatures => exact twin_tableFeatures ctx c c'

/-- Records do not start at the end of a buffer. -/
theorem remaining_pos_of_run {R : SizedRecord} {c : Cursor} {a : R.Value}
    (h : ((Message.read ctx).run c).result = .ok a) : 0 < c.remaining := by
  have hword {α β : Type} {n : Nat} {ofBytes : Bytes → α} {f : α → Reader β} {b : β} (hn : 0 < n)
      (h : (((Reader.bytes n >>= fun x => pure (ofBytes x)) >>= f).run c).result = .ok b) :
      0 < c.remaining := by
    obtain ⟨a, c', w, hrun, -⟩ := Reader.exists_of_run_bind h
    exact Nat.lt_of_lt_of_le hn (Reader.of_run_word hrun).1
  cases R with
  | flowStats =>
    change ((FlowStats.read ctx).run c).result = .ok a at h
    unfold FlowStats.read at h
    rw [Reader.run_cursor_bind] at h
    exact hword Nat.two_pos h
  | packetQueue => exact hword (Nat.zero_lt_succ 3) h
  | groupStats | meterConfig | tableFeatures => exact hword Nat.two_pos h

/-- Queues and the features of tables refuse a length that does not cover their fixed part. -/
theorem covers_of_run {R : SizedRecord} {c : Cursor} {a : R.Value}
    (hR : R = packetQueue ∨ R = tableFeatures) (h : ((Message.read ctx).run c).result = .ok a) :
    R.Covers c.rest := by
  rcases hR with rfl | rfl
  · change ((PacketQueue.read ctx).run c).result = .ok a at h
    obtain ⟨queueId, c₁, w₁, hid, h₁⟩ := Reader.exists_of_run_bind h
    obtain ⟨port, c₂, w₂, hport, h₂⟩ := Reader.exists_of_run_bind h₁
    obtain ⟨length, c₃, w₃, hlength, h₃⟩ := Reader.exists_of_run_bind h₂
    obtain ⟨u, c₄, w₄, -, h₄⟩ := Reader.exists_of_run_bind h₃
    obtain ⟨-, -, rfl⟩ := Reader.of_run_word hid
    obtain ⟨-, -, rfl⟩ := Reader.of_run_word hport
    have hdeclared : packetQueue.declared c.rest = length.toNat :=
      declared_of_run hlength List.drop_drop
    by_cases hshort : length.toNat < PacketQueue.fixedSize
    · rw [if_pos hshort] at h₄
      exact absurd h₄ Reader.run_fail_ne
    · exact ⟨hdeclared ▸ Nat.le_of_not_lt hshort, nofun⟩
  · change ((TableFeatures.read ctx).run c).result = .ok a at h
    obtain ⟨length, c₁, w₁, hlength, h₁⟩ := Reader.exists_of_run_bind h
    have hdeclared : tableFeatures.declared c.rest = length.toNat := declared_of_run hlength rfl
    by_cases hshort : length.toNat < TableFeatures.fixedSize
    · rw [if_pos hshort] at h₁
      exact absurd h₁ Reader.run_fail_ne
    · exact ⟨hdeclared ▸ Nat.le_of_not_lt hshort, nofun⟩

theorem reach_pos (R : SizedRecord) (bytes : Bytes) : 0 < R.reach bytes := by
  cases R with
  | groupStats => exact Nat.lt_of_lt_of_le (by decide) (Nat.le_add_right 40 _)
  | flowStats =>
    have hfront := Nat.le_trans (Nat.le_add_right 48 (Match.room (bytes.drop 48)))
      (Nat.le_max_left _ (flowStats.declared bytes))
    exact Nat.lt_of_lt_of_le (by decide) hfront
  | packetQueue => exact Nat.lt_of_lt_of_le (by decide) (Nat.le_max_left 16 _)
  | meterConfig => exact Nat.lt_of_lt_of_le (by decide) (Nat.le_max_left 8 _)
  | tableFeatures => exact Nat.lt_of_lt_of_le (by decide) (Nat.le_max_left 64 _)

/-- **A record is decoded within the bytes that it reaches**: the cursor goes to the end of them, or
of the buffer, and the same bytes give the same record in any other place, whatever follows them.
These are the bytes that its length declares exactly if the length covers what the record is made
of; queues and the features of tables are refused otherwise. -/
theorem read_reach (R : SizedRecord) (ctx : Context) (buf : Bytes) (p : Nat) (a : R.Value)
    (h : ((Message.read ctx).run (Cursor.at buf p)).result = .ok a) :
    let n := R.reach (buf.drop p)
    (∃ w, (Message.read ctx : Reader R.Value).run (Cursor.at buf p) =
        ⟨.ok a, Cursor.at buf (min (p + n) buf.length), w⟩ ∧
      ∀ (buf' : Bytes) (p' : Nat), (buf'.drop p').take n = (buf.drop p).take n →
        (Message.read ctx : Reader R.Value).run (Cursor.at buf' p') =
          ⟨.ok a, Cursor.at buf' (min (p' + n) buf'.length), w⟩) ∧
    (n = R.declared (buf.drop p) ↔ R.Covers (buf.drop p)) ∧
    (R = packetQueue ∨ R = tableFeatures → R.Covers (buf.drop p)) := by
  intro n
  have hpos : 0 < buf.length - p := remaining_pos_of_run h
  have hn : 0 < n := R.reach_pos _
  refine ⟨?_, R.reach_eq_declared_iff _, fun hR => covers_of_run hR h⟩
  obtain ⟨w, hrun, -⟩ := R.twin_read ctx (Cursor.at buf p) (Cursor.at buf p)
    (.refl _ (by change p ≤ buf.length; omega)) a h
  rw [Element.advanceWithin_at] at hrun
  refine ⟨w, hrun, fun buf' p' hsame => ?_⟩
  -- The other cursor is inside of its buffer, since there are bytes at it.
  have hlen := congrArg List.length hsame
  rw [List.length_take, List.length_take, List.length_drop, List.length_drop] at hlen
  have halike : Cursor.Alike n (Cursor.at buf p) (Cursor.at buf' p') :=
    ⟨by change p ≤ buf.length; omega, by change p' ≤ buf'.length; omega, hsame.symm⟩
  obtain ⟨w', hrun₁, hrun₂⟩ := R.twin_read ctx (Cursor.at buf p) (Cursor.at buf' p') halike a h
  rw [Element.advanceWithin_at] at hrun₁ hrun₂
  cases hrun.symm.trans hrun₁
  exact hrun₂

/-- A meter with one band. -/
def meterBytes : Bytes :=
  [0, 24, 0, 1, 0, 0, 0, 7, 0, 1, 0, 16, 0, 0, 0, 8, 0, 0, 0, 9, 1, 1, 1, 1]

/-- Between other bytes and in front of other ones, the meter is the same. -/
theorem read_reach_meterBytes :
    ∃ w, (Message.read {} : Reader MeterConfig).run (Cursor.at ([9] ++ meterBytes ++ [0, 1]) 1) =
        ⟨.ok ⟨1, 7, [⟨8, 9, .drop⟩]⟩, Cursor.at ([9] ++ meterBytes ++ [0, 1]) 25, w⟩ ∧
      (Message.read {} : Reader MeterConfig).run (Cursor.at (meterBytes ++ [0, 2, 0, 8]) 0) =
        ⟨.ok ⟨1, 7, [⟨8, 9, .drop⟩]⟩, Cursor.at (meterBytes ++ [0, 2, 0, 8]) 24, w⟩ := by
  obtain ⟨⟨w, hrun, hsame⟩, -, -⟩ := read_reach .meterConfig {} ([9] ++ meterBytes ++ [0, 1]) 1
    (⟨1, 7, [⟨8, 9, .drop⟩]⟩ : MeterConfig) (by with_unfolding_all rfl)
  exact ⟨w, hrun, hsame (meterBytes ++ [0, 2, 0, 8]) 0 rfl⟩

/-- Statistics of a group whose length leaves half a bucket. -/
def halfBucket : Bytes := [0, 48] ++ Bytes.zeros 46

/-- A meter whose length does not cover its id. -/
def shortMeter (id : UInt8) : Bytes := [0, 4, 0, 0, 0, 0, 0, id]

/-- The half bucket is neither read nor passed, and the id of the meter is read from bytes behind
its end. -/
theorem not_read_declared :
    (groupStats.declared halfBucket = 48 ∧ halfBucket.length = 48 ∧
      ((Message.read {} : Reader GroupStats).run (Cursor.at halfBucket 0)).result = .ok {} ∧
      ((Message.read {} : Reader GroupStats).run (Cursor.at halfBucket 0)).cursor.pos = 40) ∧
    meterConfig.declared (shortMeter 7) = 4 ∧ (shortMeter 7).take 4 = (shortMeter 8).take 4 ∧
      ((Message.read {} : Reader MeterConfig).run (Cursor.at (shortMeter 7) 0)).result =
        .ok ⟨0, 7, []⟩ ∧
      ((Message.read {} : Reader MeterConfig).run (Cursor.at (shortMeter 8) 0)).result =
        .ok ⟨0, 8, []⟩ := by
  refine ⟨⟨rfl, rfl, ?_, ?_⟩, rfl, rfl, ?_, ?_⟩ <;> with_unfolding_all rfl

end SizedRecord
end OpenFlow
