import OpenFlow.Proofs.Message.Relay
import OpenFlow.Proofs.Multipart.Accounts
import OpenFlow.Proofs.Text.Cut

/-!
# Texts that are sent on

A switch description holds five texts, and the features of a table hold its name.  Where such a
message is decoded and encoded again, the texts that are written are what a field gave, and what a
field gave need not fit in it: bytes that are not well formed are read as characters of three
bytes.  The message that is decoded the second time has each text as its field gives it back, and
all the rest as it was.  So it is the same message exactly if the fields keep the texts, and after
the second time it is the same for good.

Main definitions:

* `SwitchDescription.reread`, `TableFeatures.reread`: a message with the texts that its fields give
  back.

Main statements:

* `SwitchDescription.decode_encode`, `TableFeatures.decode_encode_of_decode`: what comes of a
  message that was decoded, encoded and decoded.
* `TableFeatures.name_of_decode_encode`: the name comes back from its field in every context.
* `Text.reread_read_eq_iff`: which texts that were read come back, in a field and in a message.
-/

namespace OpenFlow

namespace Reader

variable {width : Nat} {shortage : Shortage}

/-- A text that was read is what the bytes at the cursor spell. -/
theorem of_run_text {c : Cursor} {s : String}
    (h : ((text width shortage).run c).result = .ok s) : s = Text.read (c.rest.take width) := by
  unfold text at h
  rw [run_cursor_bind] at h
  by_cases hroom : width ≤ c.remaining
  · rw [if_pos hroom, run_word_of_le Text.read hroom] at h
    cases h
    rfl
  · rw [if_neg hroom] at h
    exact absurd h run_fail_ne

/-- Such a text has no zero character. -/
theorem yields_text : (text width shortage).Yields fun s => '\x00' ∉ s.toList := by
  intro c s h
  rw [of_run_text h]
  exact Text.nul_notMem_read _

end Reader

/-! ## Switch descriptions -/

namespace SwitchDescription

/-- The texts of a description, each with the width of its field. -/
def texts (d : SwitchDescription) : List (Nat × String) :=
  [(textWidth, d.manufacturer), (textWidth, d.hardware), (textWidth, d.software),
    (serialWidth, d.serialNumber), (textWidth, d.datapath)]

/-- A description with the texts that its fields give back. -/
def reread (d : SwitchDescription) : SwitchDescription where
  manufacturer := Text.reread textWidth d.manufacturer
  hardware := Text.reread textWidth d.hardware
  software := Text.reread textWidth d.software
  serialNumber := Text.reread serialWidth d.serialNumber
  datapath := Text.reread textWidth d.datapath

/-- A description comes back exactly if each of its fields keeps its text. -/
theorem reread_eq_self_iff {d : SwitchDescription} (h : ∀ p ∈ d.texts, '\x00' ∉ p.2.toList) :
    d.reread = d ↔ ∀ p ∈ d.texts, Text.Keeps p.1 p.2 := by
  have hall : (∀ p ∈ d.texts, Text.Keeps p.1 p.2) ↔
      ∀ p ∈ d.texts, Text.reread p.1 p.2 = p.2 := by
    refine forall₂_congr fun p hp => ?_
    exact (Text.reread_eq_self_iff (h p hp)).symm
  rw [hall]
  obtain ⟨manufacturer, hardware, software, serialNumber, datapath⟩ := d
  simp [texts, reread]

/-- **A description of any texts** is read back with those that its fields give back. -/
theorem agree_reread (d : SwitchDescription) (c : Cursor) (tail : Bytes) :
    Agree d.write read c size tail d.reread := by
  unfold write read
  simp only [Writer.append_assoc]
  refine Agree.of_size_eq (Agree.bind (Agree.written _ _ _ _) (Agree.bind (Agree.written _ _ _ _)
    (Agree.bind (Agree.written _ _ _ _) (Agree.bind (Agree.written _ _ _ _)
      (Agree.map (Agree.written _ _ _ _ _))))))

/-- The texts of a description that was read have no zero character. -/
theorem yields_read : read.Yields fun d => ∀ p ∈ d.texts, '\x00' ∉ p.2.toList := by
  refine .bind (Reader.yields_text) fun manufacturer hmanufacturer => ?_
  refine .bind (Reader.yields_text) fun hardware hhardware => ?_
  refine .bind (Reader.yields_text) fun software hsoftware => ?_
  refine .bind (Reader.yields_text) fun serialNumber hserialNumber => ?_
  refine .bind (Reader.yields_text) fun datapath hdatapath => .pure ?_
  simp only [texts, List.forall_mem_cons]
  exact ⟨hmanufacturer, hhardware, hsoftware, hserialNumber, hdatapath,
    fun p hp => absurd hp List.not_mem_nil⟩

variable {ctx : Context} {buf : Bytes} {d : SwitchDescription} {n : Nat}

/-- A description that was decoded comes back exactly if each of its fields keeps its text. -/
theorem reread_eq_self_iff_of_decode (h : Message.decode ctx buf = .ok (d, n)) :
    d.reread = d ↔ ∀ p ∈ d.texts, Text.Keeps p.1 p.2 := by
  obtain ⟨c, w, hrun, -⟩ := Message.run_of_decode h
  exact reread_eq_self_iff (yields_read (congrArg Outcome.result hrun))

/-- **A description has a wire form**, which is decoded with the texts that its fields give back. -/
theorem decode_encode (ctx : Context) (d : SwitchDescription) :
    ∃ b, Message.encode d = .ok b ∧ Message.decode ctx b = .ok (d.reread, b.length) := by
  obtain ⟨b, hb, hlen⟩ := (agree_reread d (Cursor.start []) []).spans
  have hdecode : Message.decode ctx (b ++ []) = .ok (d.reread, size) :=
    Message.decode_of_encode (fun c => agree_reread d c []) hb
  rw [List.append_nil, ← hlen] at hdecode
  exact ⟨b, hb, hdecode⟩

end SwitchDescription

/-! ## Features of tables -/

namespace TableFeatures

variable {ctx : Context}

/-- The features of a table with the name that its field gives back. -/
def reread (t : TableFeatures) : TableFeatures :=
  { t with name := Text.reread nameWidth t.name }

/-- The name of a table that was read stood behind eight bytes, and its properties are a list. -/
theorem of_run_read {c : Cursor} {t : TableFeatures} (h : ((read ctx).run c).result = .ok t) :
    t.name = Text.read ((c.rest.drop 8).take nameWidth) ∧ ∃ (length : Nat) (c' : Cursor),
      ((Element.readList ctx length).run c').result = .ok t.properties := by
  obtain ⟨length, c₁, w₁, hlength, h⟩ := Reader.exists_of_run_bind h
  obtain ⟨-, -, rfl⟩ := Reader.of_run_word hlength
  by_cases hshort : length.toNat < fixedSize
  · rw [if_pos hshort] at h
    exact absurd h Reader.run_fail_ne
  · rw [if_neg hshort] at h
    obtain ⟨tableId, c₂, w₂, htableId, h⟩ := Reader.exists_of_run_bind h
    obtain ⟨-, -, rfl⟩ := Reader.of_run_word htableId
    obtain ⟨u, c₃, w₃, hskip, h⟩ := Reader.exists_of_run_bind h
    obtain ⟨-, rfl⟩ := Reader.of_run_skip hskip
    obtain ⟨name, c₄, w₄, hname, h⟩ := Reader.exists_of_run_bind h
    obtain ⟨metadataMatch, c₅, w₅, -, h⟩ := Reader.exists_of_run_bind h
    obtain ⟨metadataWrite, c₆, w₆, -, h⟩ := Reader.exists_of_run_bind h
    obtain ⟨config, c₇, w₇, -, h⟩ := Reader.exists_of_run_bind h
    obtain ⟨maxEntries, c₈, w₈, -, h⟩ := Reader.exists_of_run_bind h
    obtain ⟨properties, c₉, w₉, hlist, hlast⟩ := Reader.exists_of_run_bind h
    cases hlast
    refine ⟨?_, _, _, congrArg Outcome.result hlist⟩
    have hread := Reader.of_run_text (congrArg Outcome.result hname)
    simpa only [Cursor.advance_advance, Cursor.rest_advance] using hread

/-- The field of the name stands behind eight bytes. -/
theorem exists_front_of_encode {t : TableFeatures} {b : Bytes} (hb : Message.encode t = .ok b) :
    ∃ front rest : Bytes, front.length = 8 ∧
      b = front ++ (Text.write nameWidth t.name ++ rest) := by
  have hw : (Writer.length16 "table features" t.size ++ (Writer.u8 t.tableId ++ Writer.zeros 5) ++
      (Writer.text nameWidth t.name ++ (Writer.u64 t.metadataMatch ++ (Writer.u64 t.metadataWrite ++
        (Writer.u32 t.config ++ (Writer.u32 t.maxEntries ++
          Element.writeList t.properties)))))).encode = .ok b := by
    rw [← hb]
    change _ = (write t).encode
    unfold write
    simp only [Writer.append_assoc]
  obtain ⟨front, hfront, _, hbehind, rfl⟩ := Writer.encode_append_eq_ok_iff.mp hw
  obtain ⟨_, hlength, -⟩ := Writer.encode_append_eq_ok_iff.mp hfront
  obtain ⟨hlt, -⟩ := Writer.encode_length16_eq_ok_iff.mp hlength
  have hspans : Writer.Spans (Writer.length16 "table features" t.size ++
      (Writer.u8 t.tableId ++ Writer.zeros 5)) 8 :=
    .append (.length16 hlt) (.append (.u8 t.tableId) (.zeros 5))
  obtain ⟨field, hfield, rest, -, rfl⟩ := Writer.encode_append_eq_ok_iff.mp hbehind
  obtain rfl : Text.write nameWidth t.name = field :=
    Except.ok.inj ((Writer.encode_bytes _).symm.trans hfield)
  exact ⟨front, rest, hspans.length_eq hfront, rfl⟩

/-- **The name of a table comes back from its field in every context**, whatever becomes of the
properties. -/
theorem name_of_decode_encode {t t' : TableFeatures} {b s : Bytes} {n : Nat}
    (hb : Message.encode t = .ok b) (h : Message.decode ctx (b ++ s) = .ok (t', n)) :
    t'.name = Text.reread nameWidth t.name := by
  obtain ⟨c, w, hrun, -⟩ := Message.run_of_decode h
  obtain ⟨hname, -⟩ := of_run_read (congrArg Outcome.result hrun)
  obtain ⟨front, rest, hfront, rfl⟩ := exists_front_of_encode hb
  rw [hname, Text.reread, Cursor.start, Cursor.rest_at, List.drop_zero, List.append_assoc,
    List.drop_left' hfront, List.append_assoc, List.take_left' (Text.length_write _ _)]

theorem encode_of_le {t : TableFeatures} (hsize : 65536 ≤ t.size) :
    Message.encode t = .error (.lengthOverflow "table features" t.size) := by
  change (write t).encode = _
  unfold write
  simp only [Writer.append_assoc]
  rw [Writer.length16_of_le hsize]
  rfl

/-- Features that were decoded come back exactly if the field of the name keeps it. -/
theorem reread_eq_self_iff_of_decode {buf : Bytes} {t : TableFeatures} {n : Nat}
    (h : Message.decode ctx buf = .ok (t, n)) : t.reread = t ↔ Text.Keeps nameWidth t.name := by
  obtain ⟨c, w, hrun, -⟩ := Message.run_of_decode h
  obtain ⟨hname, -⟩ := of_run_read (congrArg Outcome.result hrun)
  rw [← Text.reread_eq_self_iff (hname ▸ Text.nul_notMem_read _)]
  obtain ⟨tableId, name, metadataMatch, metadataWrite, config, maxEntries, properties⟩ := t
  simp [reread]

/-- **Features that were decoded** have a wire form, unless their length does not fit, and this is
decoded with the name that its field gives back. -/
theorem decode_encode_of_decode
    (hpart : ctx.registries.tableProperties.PartOf TableProperty.types) {buf : Bytes}
    {t : TableFeatures} {n : Nat} (h : Message.decode ctx buf = .ok (t, n))
    (hsize : t.size < 65536) :
    ∃ b, Message.encode t = .ok b ∧ Message.decode ctx b = .ok (t.reread, b.length) := by
  obtain ⟨c, w, hrun, -⟩ := Message.run_of_decode h
  obtain ⟨-, length, c', hlist⟩ := of_run_read (congrArg Outcome.result hrun)
  obtain ⟨hlimit, hback⟩ :=
    Element.of_run_readList (fun _ _ => TableProperty.readsBack_of_readFrom hpart) hlist
  have hagree (c : Cursor) : Agree (Message.write t) (Message.read ctx) c t.size [] t.reread :=
    agree_of_readsBack (fun c tail => Agree.written _ _ _ c tail) hlimit hback hsize c []
  obtain ⟨b, hb, hlen⟩ := (hagree (Cursor.start [])).spans
  have hdecode := Message.decode_of_encode hagree hb
  rw [List.append_nil, ← hlen] at hdecode
  exact ⟨b, hb, hdecode⟩

end TableFeatures
/-! ## All of them -/

namespace Text

/-- **Which texts that were read come back** when they are written and read again: in a field, and
so in a switch description and in the features of a table, those that the field keeps.  What has
come back once comes back again.  A description always has a wire form; the features of a table
have one exactly if their length fits, and the name comes back in the same way even where the
properties of the table do not. -/
theorem reread_read_eq_iff :
    (∀ field : Bytes,
      reread field.length (read field) = read field ↔ Keeps field.length (read field)) ∧
    (∀ (n : Nat) (s : String), reread n (reread n s) = reread n s) ∧
    (∀ (ctx : Context) (buf : Bytes) (d : SwitchDescription) (n : Nat),
      Message.decode ctx buf = .ok (d, n) →
        (d.reread = d ↔ ∀ p ∈ d.texts, Keeps p.1 p.2) ∧
        ∃ b, Message.encode d = .ok b ∧ Message.decode ctx b = .ok (d.reread, b.length)) ∧
    (∀ (ctx : Context) (buf : Bytes) (t : TableFeatures) (n : Nat),
      Message.decode ctx buf = .ok (t, n) →
        (t.reread = t ↔ Keeps TableFeatures.nameWidth t.name) ∧
        (t.size < 65536 → ∃ b, Message.encode t = .ok b ∧
          (∀ (s : Bytes) (t' : TableFeatures) (n' : Nat),
            Message.decode ctx (b ++ s) = .ok (t', n') → t'.name = t.reread.name) ∧
          (ctx.registries.tableProperties.PartOf TableProperty.types →
            Message.decode ctx b = .ok (t.reread, b.length))) ∧
        (65536 ≤ t.size →
          Message.encode t = .error (.lengthOverflow "table features" t.size))) := by
  refine ⟨fun field => reread_eq_self_iff (nul_notMem_read field), reread_reread,
    fun ctx buf d n h => ?_, fun ctx buf t n h => ?_⟩
  · exact ⟨SwitchDescription.reread_eq_self_iff_of_decode h, SwitchDescription.decode_encode ctx d⟩
  · refine ⟨TableFeatures.reread_eq_self_iff_of_decode h, fun hsize => ?_,
      TableFeatures.encode_of_le⟩
    obtain ⟨b, hb⟩ := TableFeatures.exists_encode hsize
    refine ⟨b, hb, fun s t' n' h' => TableFeatures.name_of_decode_encode hb h', fun hpart => ?_⟩
    obtain ⟨b', hb', hdecode⟩ := TableFeatures.decode_encode_of_decode hpart h hsize
    cases hb.symm.trans hb'
    exact hdecode

/-- A byte that is not well formed, and a letter: what is read has four bytes. -/
theorem reread_read_ne : reread 2 (read [0xFF, 0x41]) ≠ read [0xFF, 0x41] := by
  decide

/-- Where two such bytes fill three, no byte of the second replacement character is kept. -/
example : reread 3 (read [0xFF, 0xFF, 0x00]) ≠ read [0xFF, 0xFF, 0x00] := by
  decide

/-- A field of such a byte and letters up to its end. -/
def garbled : Bytes := [0xFF] ++ List.replicate 31 0x41

/-- A description with this field as its serial number. -/
def garbledDescription : Bytes := Bytes.zeros 768 ++ (garbled ++ Bytes.zeros 256)

/-- The features of a table with this field as its name. -/
def garbledFeatures : Bytes := [0, 64, 7] ++ (Bytes.zeros 5 ++ (garbled ++ Bytes.zeros 24))

set_option maxRecDepth 20000 in
/-- The field does not keep its text, and so neither does a message with it. -/
theorem reread_read_eq_iff_garbled :
    (reread 32 (read garbled) = read garbled ↔ Keeps 32 (read garbled)) ∧
    (∃ b, Message.encode ({ serialNumber := read garbled } : SwitchDescription) = .ok b ∧
      Message.decode {} b =
        .ok (({ serialNumber := reread 32 (read garbled) } : SwitchDescription), b.length)) ∧
    ∃ b, Message.encode (TableFeatures.mk 7 (read garbled) 0 0 0 0 []) = .ok b ∧
      Message.decode {} b =
        .ok (TableFeatures.mk 7 (reread 32 (read garbled)) 0 0 0 0 [], b.length) := by
  obtain ⟨hfield, -, hdescription, hfeatures⟩ := reread_read_eq_iff
  have hd : Message.decode {} garbledDescription =
      .ok (({ serialNumber := read garbled } : SwitchDescription), 1056) := by
    with_unfolding_all rfl
  have ht : Message.decode {} garbledFeatures =
      .ok (TableFeatures.mk 7 (read garbled) 0 0 0 0 [], 64) := by
    with_unfolding_all rfl
  refine ⟨hfield garbled, ?_, ?_⟩
  · exact (hdescription {} garbledDescription _ _ hd).2
  · obtain ⟨b, hb, -, hdecode⟩ := (hfeatures {} garbledFeatures _ _ ht).2.1 (by decide)
    exact ⟨b, hb, hdecode (Registry.PartOf.refl _)⟩

end Text
end OpenFlow
