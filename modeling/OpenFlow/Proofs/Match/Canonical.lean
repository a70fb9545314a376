import Mathlib.Data.List.Perm.Subperm
import OpenFlow.Proofs.Match.RoundTrip
import OpenFlow.Proofs.Wire.Yields

/-!
# What decoding a match can give

Whatever the bytes are, a match that is decoded from them is one that its own wire form
determines: its fields have descriptors of the catalog, and its header and its fields have
a length that fits 16 bits.  For a match of fields this length is bounded by the one that
the wire declares, since each field is read from bytes of its own; setting a field twice
only makes the match shorter.  For a match of the fixed layout it is bounded by what one
field of each basic type takes.

Main statements:

* `Match.span_lt_of_isBasic`: one field of each basic type fits 16 bits by far.
* `Match.FixedLayout.yields_readBody`: a match of the fixed layout has basic fields.
* `Match.of_run_readFields`: the fields of a region are of the catalog, and fit the region.
* `Match.canonical_of_run_read`: what is decoded is a fixed point of writing and reading.
-/

namespace OpenFlow

/-! ## Fields -/

/-- Looking at a header finds the one at the cursor and stays in front of it. -/
theorem OxmHeader.of_run_peek {c c' : Cursor} {header : OxmHeader} {w : Nat}
    (h : peek.run c = ⟨.ok header, c', w⟩) : peek? c.rest = some header ∧ c' = c := by
  unfold peek at h
  rw [Reader.run_cursor_bind] at h
  cases hpeek : peek? c.rest with
  | none =>
    rw [hpeek] at h
    cases h
  | some found =>
    rw [hpeek] at h
    cases h
    exact ⟨rfl, rfl⟩

namespace OxmField

/-- What follows the header of a field does not decide about its type. -/
theorem of_run_readBody {d : FieldDescriptor} {hasMask : Bool} {c : Cursor} {f : OxmField}
    (h : ((readBody d hasMask).run c).result = .ok f) :
    f.descriptor = d ∧ f.hasMask = hasMask := by
  unfold readBody at h
  obtain ⟨value, c', w, -, hrest⟩ := Reader.exists_of_run_bind h
  cases hasMask with
  | true =>
    rw [if_pos rfl] at hrest
    obtain ⟨mask, c'', w', -, hlast⟩ := Reader.exists_of_run_bind hrest
    cases hlast
    exact ⟨rfl, rfl⟩
  | false =>
    rw [if_neg Bool.false_ne_true] at hrest
    cases hrest
    exact ⟨rfl, rfl⟩

/-- A field that was read has the descriptor that the catalog gives for the header at the cursor,
and a mask if that header says so. -/
theorem of_run_read {catalog : FieldCatalog} {c : Cursor} {f : OxmField}
    (h : ((read catalog).run c).result = .ok f) {header : OxmHeader}
    (hpeek : OxmHeader.peek? c.rest = some header) :
    catalog.lookup? header.oxmClass header.field = some f.descriptor ∧
      f.hasMask = header.hasMask := by
  unfold read at h
  obtain ⟨word, c', w, hword, hrest⟩ := Reader.exists_of_run_bind h
  obtain rfl : header = OxmHeader.ofWord word :=
    Option.some.inj (hpeek.symm.trans (OxmHeader.peek?_of_run hword))
  cases hlookup : catalog.lookup? (OxmHeader.ofWord word).oxmClass
    (OxmHeader.ofWord word).field with
  | none =>
    simp only [hlookup] at hrest
    exact absurd hrest Reader.run_fail_ne
  | some d =>
    simp only [hlookup] at hrest
    -- A length that disagrees with the catalog is warned about, and what follows is the same.
    obtain ⟨c'', hbody⟩ : ∃ c'', ((readBody d (OxmHeader.ofWord word).hasMask).run c'').result =
        .ok f := by
      by_cases hlength : (!lengthAgrees (OxmHeader.ofWord word) d) = true
      · rw [if_pos hlength] at hrest
        obtain ⟨u, c'', w', -, hbody⟩ := Reader.exists_of_run_bind hrest
        exact ⟨c'', hbody⟩
      · rw [if_neg hlength] at hrest
        exact ⟨c', hrest⟩
    obtain ⟨hd, hmask⟩ := of_run_readBody hbody
    exact ⟨congrArg some hd.symm, hmask⟩

/-- A field of a basic type takes at most a header and two copies of sixteen bytes. -/
theorem IsBasic.size_le {f : OxmField} (h : f.IsBasic) : f.size ≤ 36 := by
  obtain ⟨t, ht⟩ := h
  have hwidth : f.width ≤ 16 := by
    unfold width
    rw [ht]
    cases t <;> decide
  have hcopies : OxmHeader.copiesOf f.hasMask ≤ 2 := by
    cases f.hasMask <;> decide
  have hpayload : f.width * OxmHeader.copiesOf f.hasMask ≤ 16 * 2 := Nat.mul_le_mul hwidth hcopies
  change 4 + f.width * OxmHeader.copiesOf f.hasMask ≤ 36
  omega

end OxmField

namespace Match

variable {ctx : Context}

/-! ## The fields of a region -/

/-- What one step of reading the fields of a region can have done: it ended the list, read a field
of the catalog from bytes of its own, or passed over some bytes. -/
theorem cases_of_run_readFields {region : Bytes} {c : Cursor} {fields : List OxmField}
    (h : ((readFields ctx region).run c).result = .ok fields) :
    fields = [] ∨
      (∃ f rest c', fields = f :: rest ∧ ctx.registries.fields.Finds f.descriptor ∧
        f.size ≤ region.length ∧
        ((readFields ctx (region.drop f.size)).run c').result = .ok rest) ∨
      ∃ n c', 0 < n ∧ n ≤ region.length ∧
        ((readFields ctx (region.drop n)).run c').result = .ok fields := by
  have hnil (hrun : ((pure [] : Reader (List OxmField)).run c).result = .ok fields) :
      fields = [] := by
    cases hrun
    rfl
  rw [readFields_eq] at h
  cases hpeek : OxmHeader.peek? region with
  | none =>
    rw [hpeek] at h
    exact Or.inl (hnil h)
  | some header =>
    rw [hpeek] at h
    cases hlookup : ctx.registries.fields.lookup? header.oxmClass header.field with
    | none =>
      simp only [hlookup] at h
      by_cases hreject : ctx.unknownFields = .reject
      · rw [if_pos hreject] at h
        exact absurd h Reader.run_fail_ne
      rw [if_neg hreject] at h
      by_cases hshort : region.length < header.wireLength
      · rw [if_pos hshort] at h
        exact Or.inl (hnil h)
      · rw [if_neg hshort, Reader.run_pass_bind] at h
        have hpos : 0 < header.wireLength := Nat.lt_of_lt_of_le (by decide) (Nat.le_add_right 4 _)
        exact Or.inr (Or.inr ⟨header.wireLength, _, hpos, Nat.le_of_not_lt hshort, h⟩)
    | some d =>
      simp only [hlookup] at h
      generalize hsize : OxmHeader.size + d.width.toNat * OxmHeader.copiesOf header.hasMask = size
        at h
      by_cases hshort : region.length < size
      · rw [if_pos hshort] at h
        exact Or.inl (hnil h)
      rw [if_neg hshort] at h
      obtain ⟨f, c', w, hfield, hrest⟩ := Reader.exists_of_run_bind h
      rw [Reader.run_pass_bind] at hrest
      obtain ⟨rest, c'', w', hfields, hlast⟩ := Reader.exists_of_run_bind hrest
      cases hlast
      have hread : ((OxmField.read ctx.registries.fields).run
          (Cursor.start (region.take size))).result = .ok f :=
        congrArg Outcome.result hfield
      have hfront : OxmHeader.peek? (Cursor.start (region.take size)).rest = some header :=
        OxmHeader.peek?_take (hsize ▸ Nat.le_add_right _ _) hpeek
      obtain ⟨hfound, hmask⟩ := OxmField.of_run_read hread hfront
      obtain rfl : d = f.descriptor := Option.some.inj (hlookup.symm.trans hfound)
      obtain rfl : f.size = size := by
        rw [← hsize, ← hmask]
        rfl
      exact Or.inr (Or.inl ⟨f, rest, _, rfl, FieldCatalog.finds_of_peek? hpeek hlookup,
        Nat.le_of_not_lt hshort, congrArg Outcome.result hfields⟩)

/-- **The fields of a region** have descriptors that the catalog finds, and they take no more room
than the region has. -/
theorem of_run_readFields {region : Bytes} {c : Cursor} {fields : List OxmField}
    (h : ((readFields ctx region).run c).result = .ok fields) :
    (∀ f ∈ fields, ctx.registries.fields.Finds f.descriptor) ∧
      total OxmField.size fields ≤ region.length := by
  -- The induction is on the length of the region, since some bytes of it are passed over.
  induction hn : region.length using Nat.strongRecOn generalizing region c fields with
  | _ n ih =>
    subst hn
    rcases cases_of_run_readFields h with rfl | ⟨f, rest, c', rfl, hf, hfits, hrest⟩ |
      ⟨k, c', hpos, hfits, hrest⟩
    · exact ⟨fun f hf => absurd hf List.not_mem_nil, Nat.zero_le _⟩
    · have hfour : 4 ≤ f.size := Nat.le_add_right _ _
      have hlen : (region.drop f.size).length = region.length - f.size := List.length_drop
      obtain ⟨hfinds, htotal⟩ := ih _ (by omega) hrest rfl
      refine ⟨List.forall_mem_cons.mpr ⟨hf, hfinds⟩, ?_⟩
      rw [total_cons]
      omega
    · have hlen : (region.drop k).length = region.length - k := List.length_drop
      obtain ⟨hfinds, htotal⟩ := ih _ (by omega) hrest rfl
      exact ⟨hfinds, by omega⟩

/-! ## Matches of the fixed layout -/

/-- All fields of a match are of basic types. -/
def IsBasic (m : Match) : Prop := ∀ f ∈ m.fields, f.IsBasic

theorem isBasic_all : IsBasic all := by
  intro f hf
  exact absurd hf List.not_mem_nil

/-- Setting a field that is built for a basic type. -/
theorem IsBasic.of_build {m m' : Match} (hm : m.IsBasic) {t : FieldType} {value : OxmValue}
    {mask : Option OxmValue} (h : (OxmField.build t.descriptor value mask).map m.set = .ok m') :
    m'.IsBasic := by
  cases hbuild : OxmField.build t.descriptor value mask with
  | error e =>
    rw [hbuild] at h
    cases h
  | ok f =>
    rw [hbuild] at h
    cases h
    intro g hg
    rcases mem_of_mem_update hg with rfl | hg
    · exact ⟨t, OxmField.descriptor_of_build hbuild⟩
    · exact hm g hg

theorem IsBasic.of_setExact {m m' : Match} (hm : m.IsBasic) {t : FieldType} {value : OxmValue}
    (h : m.setExact t value = .ok m') : m'.IsBasic := by
  have hbuild : (OxmField.build t.descriptor value none).map m.set = .ok m' := h
  exact hm.of_build hbuild

theorem IsBasic.of_setMasked {m m' : Match} (hm : m.IsBasic) {t : FieldType}
    {value mask : OxmValue} (h : m.setMasked t value mask = .ok m') : m'.IsBasic := by
  have hbuild : (OxmField.build t.descriptor value (some mask)).map m.set = .ok m' := h
  exact hm.of_build hbuild

/-- **One field of each basic type has a length that fits 16 bits**, by far. -/
theorem span_lt_of_isBasic {m : Match} (h : m.IsBasic) : m.span < 65536 := by
  have hkeys : m.fields.map OxmField.key ⊆ FieldType.all.map fun t => t.descriptor.key := by
    intro k hk
    obtain ⟨f, hf, rfl⟩ := List.mem_map.mp hk
    obtain ⟨t, ht⟩ := h f hf
    exact List.mem_map.mpr ⟨t, FieldType.mem_all t, congrArg FieldDescriptor.key ht.symm⟩
  have hcount : m.fields.length ≤ 40 := by
    have hle := (m.nodup.subperm hkeys).length_le
    rwa [List.length_map, List.length_map] at hle
  have htotal : total OxmField.size m.fields ≤ 36 * m.fields.length :=
    total_le_mul_length fun f hf => (h f hf).size_le
  change 4 + total OxmField.size m.fields < 65536
  omega

namespace FixedLayout

variable {m : Match} {w flag : UInt32} {t : FieldType}

theorem yields_setUnlessWild (hm : m.IsBasic) (value : OxmValue) :
    (setUnlessWild m w flag t value).Yields IsBasic := by
  unfold setUnlessWild
  by_cases hexact : Wildcards.isExact w flag = true
  · rw [if_pos hexact]
    exact Reader.Yields.lift fun _ h => hm.of_setExact h
  · rw [if_neg hexact]
    exact Reader.Yields.pure hm

theorem yields_setInverse (hm : m.IsBasic) (value ignored : OxmValue) :
    (setInverse m t value ignored).Yields IsBasic := by
  unfold setInverse
  by_cases hzero : ignored.isZero = true
  · rw [if_pos hzero]
    exact Reader.Yields.lift fun _ h => hm.of_setMasked h
  · rw [if_neg hzero]
    exact Reader.Yields.lift fun _ h => hm.of_setExact h

theorem yields_readEthernet (hm : m.IsBasic) : (readEthernet m t).Yields IsBasic :=
  .after fun address => .after fun ignored => yields_setInverse hm (.bytes address) (.bytes ignored)

theorem yields_readIpv4 (hm : m.IsBasic) : (readIpv4 m t).Yields IsBasic := by
  refine .after fun address => .after fun ignored => ?_
  by_cases hzero : address = 0
  · rw [if_pos hzero]
    exact Reader.Yields.pure hm
  · rw [if_neg hzero]
    exact yields_setInverse hm (.u32 address) (.u32 ignored)

theorem yields_readTransport (hm : m.IsBasic) {source destination : FieldType} :
    (readTransport m w source destination).Yields IsBasic := by
  refine .after fun sourcePort => .bind (yields_setUnlessWild hm _) fun m hm => ?_
  refine .after fun destinationPort => .bind (yields_setUnlessWild hm _) fun m hm => ?_
  refine .after fun label => .bind (yields_setUnlessWild hm _) fun m hm => ?_
  refine .after fun trafficClass => .bind (yields_setUnlessWild hm _) fun m hm => ?_
  refine .after fun padding => .after fun metadata => .after fun ignored => ?_
  exact yields_setInverse hm (.u64 metadata) (.u64 ignored)

theorem yields_readNetwork (hm : m.IsBasic) : (readNetwork m w).Yields IsBasic := by
  refine .after fun tos => .bind (yields_setUnlessWild hm _) fun m hm => ?_
  refine .after fun protocol => .bind (yields_setUnlessWild hm _) fun m hm => ?_
  refine .bind (yields_readIpv4 hm) fun m hm => .bind (yields_readIpv4 hm) fun m hm => ?_
  by_cases hexact : Wildcards.isExact w Wildcards.protocol = true
  · rw [if_pos hexact]
    rcases portFields? protocol with _ | ⟨source, destination⟩
    · exact Reader.Yields.pure hm
    · exact yields_readTransport hm
  · rw [if_neg hexact]
    exact Reader.Yields.pure hm

/-- **A match of the fixed layout has fields of basic types only.** -/
theorem yields_readBody : readBody.Yields IsBasic := by
  refine .after fun port => .after fun w => ?_
  refine .bind (yields_setUnlessWild isBasic_all _) fun m hm => ?_
  refine .bind (yields_readEthernet hm) fun m hm => .bind (yields_readEthernet hm) fun m hm => ?_
  refine .after fun vlan => .bind (yields_setUnlessWild hm _) fun m hm => ?_
  refine .after fun priority => .bind (yields_setUnlessWild hm _) fun m hm => ?_
  refine .after fun padding => .after fun etherType => ?_
  refine .bind (yields_setUnlessWild hm _) fun m hm => ?_
  by_cases hnetwork : (Wildcards.isExact w Wildcards.etherType && hasNetwork etherType) = true
  · rw [if_pos hnetwork]
    exact yields_readNetwork hm
  · rw [if_neg hnetwork]
    exact Reader.Yields.pure hm

end FixedLayout

/-! ## The match -/

/-- What a match that was read can be: fields of the catalog that fit the declared length, set one
after the other, or a match of the fixed layout. -/
theorem cases_of_run_read {c : Cursor} {m : Match} (h : ((read ctx).run c).result = .ok m) :
    ∃ code declared, Bytes.peekHeader? c.rest = some (code, declared) ∧
      headerSize ≤ declared.toNat ∧
      ((code = oxmCode ∧ ∃ fields, m = ofFields fields ∧
          (∀ f ∈ fields, ctx.registries.fields.Finds f.descriptor) ∧
          headerSize + total OxmField.size fields ≤ declared.toNat) ∨
        (code = fixedCode ∧ m.IsBasic)) := by
  unfold read at h
  rw [Reader.run_cursor_bind] at h
  obtain ⟨code, c₁, w₁, hcode, h⟩ := Reader.exists_of_run_bind h
  obtain ⟨declared, c₂, w₂, hdeclared, h⟩ := Reader.exists_of_run_bind h
  obtain ⟨hpeek, -⟩ := Reader.peekHeader?_of_run hcode hdeclared
  by_cases hlow : declared.toNat < headerSize
  · rw [if_pos hlow] at h
    exact absurd h Reader.run_fail_ne
  rw [if_neg hlow] at h
  refine ⟨code, declared, hpeek, Nat.le_of_not_lt hlow, ?_⟩
  by_cases hoxm : code = oxmCode
  · rw [if_pos hoxm, Reader.run_cursor_bind] at h
    obtain ⟨fields, c₃, w₃, hfields, h⟩ := Reader.exists_of_run_bind h
    obtain ⟨u, c₄, w₄, -, h⟩ := Reader.exists_of_run_bind h
    cases h
    obtain ⟨hfinds, htotal⟩ := of_run_readFields (congrArg Outcome.result hfields)
    rw [List.length_take] at htotal
    exact Or.inl ⟨hoxm, fields, rfl, hfinds, by omega⟩
  rw [if_neg hoxm] at h
  by_cases hfixed : code = fixedCode
  · rw [if_pos hfixed] at h
    by_cases hshort : declared.toNat < FixedLayout.size
    · rw [if_pos hshort] at h
      exact absurd h Reader.run_fail_ne
    rw [if_neg hshort] at h
    obtain ⟨m', c₃, w₃, hbody, h⟩ := Reader.exists_of_run_bind h
    obtain ⟨u, c₄, w₄, -, h⟩ := Reader.exists_of_run_bind h
    cases h
    exact Or.inr ⟨hfixed, FixedLayout.yields_readBody (congrArg Outcome.result hbody)⟩
  · rw [if_neg hfixed] at h
    exact absurd h Reader.run_fail_ne

/-- **A match that was read** has fields that the catalog finds and a length that fits 16 bits, for a
match of fields at most the length on the wire. -/
theorem of_run_read (hbasic : ∀ t : FieldType, ctx.registries.fields.Holds t.descriptor)
    {c : Cursor} {m : Match} (h : ((read ctx).run c).result = .ok m) :
    (∀ f ∈ m.fields, ctx.registries.fields.Finds f.descriptor) ∧ m.span < 65536 ∧
      ∀ declared, Bytes.peekHeader? c.rest = some (oxmCode, declared) →
        m.span ≤ declared.toNat := by
  obtain ⟨code, declared, hpeek, -, ⟨-, fields, rfl, hfinds, hfit⟩ | ⟨rfl, hm⟩⟩ :=
    cases_of_run_read h
  · have hspan : (ofFields fields).span ≤ declared.toNat :=
      Nat.le_trans (span_ofFields_le fields) hfit
    refine ⟨fun f hf => hfinds f (mem_of_mem_fields_ofFields hf),
      Nat.lt_of_le_of_lt hspan declared.toNat_lt, ?_⟩
    intro declared' hpeek'
    cases hpeek.symm.trans hpeek'
    exact hspan
  · refine ⟨fun f hf => (hm f hf).finds hbasic, span_lt_of_isBasic hm, ?_⟩
    intro declared' hpeek'
    cases hpeek.symm.trans hpeek'

/-- **Decoding any bytes gives a canonical match**, wherever it starts and in both formats: its
fields have different types, values and masks in the form of the descriptor that the catalog has
for the type, and the length that the match declares is the one that its header and its
fields take, for a match of fields at most the length on the wire.  Such a match has a wire
form, and decoding that gives the same match and takes all of it. -/
theorem canonical_of_run_read (ctx : Context)
    (hbasic : ∀ t : FieldType, ctx.registries.fields.Holds t.descriptor) (buf : Bytes) (p : Nat)
    {m : Match} (h : ((Message.read ctx).run (Cursor.at buf p)).result = .ok m) :
    (m.fields.map OxmField.key).Nodup ∧
      (∀ f ∈ m.fields, ctx.registries.fields.Holds f.descriptor ∧
        f.value.fits f.descriptor.width.toNat ∧ f.mask.all (·.fits f.descriptor.width.toNat)) ∧
      m.length.toNat = headerSize + total OxmField.size m.fields ∧
      (∀ declared, Bytes.peekHeader? (buf.drop p) = some (oxmCode, declared) →
        m.length.toNat ≤ declared.toNat) ∧
      ∃ b, Message.encode m = .ok b ∧ Message.decode ctx b = .ok (m, b.length) := by
  obtain ⟨hfinds, hlt, hspan⟩ := of_run_read hbasic h
  have hlength : m.length.toNat = m.span := by
    rw [toNat_length, Nat.mod_eq_of_lt hlt]
  obtain ⟨b, hb, hlen, hdecode⟩ := Message.decode_of_agree (agree_of_finds hfinds hlt)
  have hback := hdecode []
  rw [List.append_nil, ← hlen] at hback
  refine ⟨m.nodup, fun f hf => ⟨(hfinds f hf).holds, f.value_fits, f.mask_fits⟩, hlength, ?_, b, hb,
    hback⟩
  intro declared hpeek
  rw [hlength]
  exact hspan declared hpeek

/-- A byte, and a match of a destination port of TCP, a field of an unknown type, a second port
with a length that is wrong, and a third one that is cut off. -/
def untidy : Bytes :=
  [9, 0, 1, 0, 26, 0x80, 0, 28, 2, 0, 80, 0, 1, 0, 1, 255, 0x80, 0, 28, 5, 1, 187,
   0x80, 0, 28, 2, 0]

/-- The match of what goes to the second port. -/
def tidy : Match := ofFields [⟨FieldType.tcpDst.descriptor, .u16 443, none, rfl, rfl⟩]

/-- The second port is all that is left. -/
theorem canonical_of_run_read_untidy :
    ((Message.read {}).run (Cursor.at untidy 1)).result = .ok tidy ∧
      tidy.length.toNat = 10 ∧
      ∃ b, Message.encode tidy = .ok b ∧ Message.decode {} b = .ok (tidy, b.length) := by
  have hrun : ((Message.read {}).run (Cursor.at untidy 1)).result = .ok tidy := by
    with_unfolding_all rfl
  obtain ⟨-, -, hlength, -, hback⟩ :=
    canonical_of_run_read {} FieldCatalog.holds_basic untidy 1 hrun
  exact ⟨hrun, hlength, hback⟩

end Match
end OpenFlow
