import OpenFlow.Proofs.Element.Accounts
import OpenFlow.Proofs.Element.Decoded
import OpenFlow.Proofs.Element.RoundTrip
import OpenFlow.Proofs.Match.Canonical

/-!
# Lists that were read are stable

Whatever the bytes are, a list that is read from them is one that its own wire form
determines: reading keeps of an element what writing needs, and nothing else.  An element
longer than its type loses what is left over, and padding turns to zeros, but that is done at
the first reading.  So writing the list and reading it again gives the same list, unless an
element has grown out of its length field on the way, which a set-field action can do.

Main definition:

* `Registries.ElementsPartOf`: to know no elements but those that others know.

Main statements:

* `Family.readsBack_of_readFrom`: an element that was read is read back.
* `Element.readList_writeList_of_run`: a list that was read is read from its own wire form.
-/

namespace OpenFlow

namespace Registries

/-- The registries of all elements know no more than others do; the catalogs may differ. -/
structure ElementsPartOf (r s : Registries) : Prop where
  actions : r.actions.PartOf s.actions
  instructions : r.instructions.PartOf s.instructions
  queueProperties : r.queueProperties.PartOf s.queueProperties
  helloElements : r.helloElements.PartOf s.helloElements
  meterBands : r.meterBands.PartOf s.meterBands
  tableProperties : r.tableProperties.PartOf s.tableProperties

end Registries

variable {ctx : Context}

namespace Element

variable {ε : Type} [Element ε] {span : Bytes} {e : ε}

/-- **What an element that was read is made of**: it is read in the same form again, if reading
what follows the header keeps the code and the form of a blank, and it is what was read from the
rest of its span. -/
theorem of_readFrom {f : UInt16 → ε → Reader ε} (hblanks : CodesBlanks ctx ε)
    (hread : ∀ b : ε, read ctx b = readHeader >>= fun header => f header.2 b)
    (hkeeps : ∀ declared b, (f declared b).Yields fun e =>
      code e = code b ∧ read ctx e = read ctx b)
    (h : ReadFrom ctx span e) :
    SameForm ctx e ∧ ∃ (declared : UInt16) (b : ε) (c : Cursor), headerSize ε ≤ declared.toNat ∧
      span.length = declared.toNat ∧ declared.toNat = commonHeaderSize + c.remaining ∧
      ((f declared b).run c).result = .ok e := by
  constructor
  · refine sameForm_of_readFrom hblanks (fun b c e' hrun => ?_) h
    rw [hread b] at hrun
    exact Reader.Yields.after (fun header : UInt16 × UInt16 => hkeeps header.2 b) hrun
  · obtain ⟨code, declared, hpeek, hheader, hlength, hrun⟩ := h
    unfold readSpan at hrun
    rw [hread] at hrun
    refine ⟨declared, _, _, hheader, hlength, ?_, of_run_readHeader_bind hrun hpeek⟩
    have hfour : ¬ span.length < 4 := by
      rw [← Bytes.peekHeader?_eq_none_iff, hpeek]
      exact Option.some_ne_none _
    change declared.toNat = 4 + (span.length - (0 + 4))
    omega

end Element

/-- A field that is refused for its type is not in the catalog: nothing behind its header is
refused for that. -/
theorem OxmField.lookup?_of_run_read {catalog : FieldCatalog} {c : Cursor} {oxmClass : UInt16}
    {field : UInt8}
    (h : ((read catalog).run c).result = .error (.unknownFieldType oxmClass field))
    {header : OxmHeader} (hpeek : OxmHeader.peek? c.rest = some header) :
    catalog.lookup? header.oxmClass header.field = none := by
  have hpayload (d : FieldDescriptor) : (readPayload d).Refuses (·.isTruncation = true) :=
    .bind (.exactly _) fun _ => .pure _
  have hbody (d : FieldDescriptor) (hasMask : Bool) :
      (readBody d hasMask).Refuses (·.isTruncation = true) := by
    refine .bind (hpayload d) fun value => ?_
    cases hasMask with
    | true => exact .bind (hpayload d) fun _ => .pure _
    | false => exact .pure _
  unfold read at h
  rcases Reader.cases_of_run_bind_error h with h | ⟨word, c', w, hword, h⟩
  · exact nomatch Reader.Refuses.word 4 (fun bs => UInt32.ofNat (Bytes.value bs)) h
  obtain rfl : header = OxmHeader.ofWord word :=
    Option.some.inj (hpeek.symm.trans (OxmHeader.peek?_of_run hword))
  cases hlookup : catalog.lookup? (OxmHeader.ofWord word).oxmClass
    (OxmHeader.ofWord word).field with
  | none => rfl
  | some d =>
    simp only [hlookup] at h
    by_cases hlength : (!lengthAgrees (OxmHeader.ofWord word) d) = true
    · rw [if_pos hlength] at h
      rcases Reader.cases_of_run_bind_error h with h | ⟨u, c'', w', -, h⟩
      · exact nomatch h
      · exact nomatch hbody d _ h
    · rw [if_neg hlength] at h
      exact nomatch hbody d _ h

/-! ## Actions -/

namespace Action

/-- An action that holds neither a field nor a body. -/
def IsPlain : Action → Prop
  | setField _ | unknown _ _ _ => False
  | _ => True

theorem IsPlain.legible {a : Action} (h : a.IsPlain) : a.Legible ctx := by
  cases a with
  | setField content => exact h.elim
  | unknown code length body => exact h.elim
  | _ => trivial

/-- Reading keeps the code of a blank and the form in which it is read. -/
theorem yields_readBody (ctx : Context) (declared : UInt16) (b : Action) :
    (readBody ctx declared b).Yields fun a =>
      (a.code = b.code ∧ read ctx a = read ctx b) ∧ (b.IsPlain → a.IsPlain) := by
  cases b with
  | output port maxLen =>
    exact .after fun _ => .after fun _ => .after fun _ => .pure ⟨⟨rfl, rfl⟩, id⟩
  | setMplsTtl ttl | setNwTtl ttl => exact .after fun _ => .after fun _ => .pure ⟨⟨rfl, rfl⟩, id⟩
  | pushVlan etherType | pushMpls etherType | popMpls etherType | pushPbb etherType =>
    exact .after fun _ => .after fun _ => .pure ⟨⟨rfl, rfl⟩, id⟩
  | setQueue id | group id => exact .after fun _ => .pure ⟨⟨rfl, rfl⟩, fun h => h⟩
  | setField content => exact .after fun _ => .pure ⟨⟨rfl, rfl⟩, id⟩
  | unknown code length body => exact .after fun _ => .pure ⟨⟨rfl, rfl⟩, id⟩
  | copyTtlOut | copyTtlIn | decMplsTtl | popVlan | decNwTtl | popPbb =>
    exact .after fun _ => .pure ⟨⟨rfl, rfl⟩, id⟩

/-- A set-field action that was read is legible: its field has a type that the catalog knows, or
its body is kept around one that the catalog does not know. -/
theorem legible_of_run_readSetField {c : Cursor} {content : SetField}
    (h : ((SetField.read ctx).run c).result = .ok content) : (setField content).Legible ctx := by
  unfold SetField.read at h
  rw [Reader.run_cursor_bind] at h
  obtain ⟨header, c', w, hheader, hrest⟩ := Reader.exists_of_run_bind h
  obtain ⟨hpeek, rfl⟩ := OxmHeader.of_run_peek hheader
  obtain ⟨outcome, c'', w', houtcome, hlast⟩ := Reader.exists_of_run_bind hrest
  rcases hread : (OxmField.read ctx.registries.fields).run c' with ⟨error | field, d, v⟩
  · rw [Reader.run_attempt_of_error hread] at houtcome
    cases houtcome
    cases error with
    | unknownFieldType oxmClass field =>
      have hlookup := OxmField.lookup?_of_run_read (congrArg Outcome.result hread) hpeek
      by_cases hskip : ctx.unknownFields = .skip
      · simp only [if_pos hskip] at hlast
        cases hlast
        exact ⟨hskip, header, hpeek, hlookup⟩
      · simp only [if_neg hskip] at hlast
        exact absurd hlast Reader.run_fail_ne
    | _ => exact absurd hlast Reader.run_fail_ne
  · rw [Reader.run_attempt_of_ok hread] at houtcome
    cases houtcome
    cases hlast
    obtain ⟨hlookup, -⟩ := OxmField.of_run_read (congrArg Outcome.result hread) hpeek
    exact FieldCatalog.finds_of_peek? hpeek hlookup

/-- An action that was read is legible, if the length that was declared covers what it was read
from. -/
theorem legible_of_run_readBody {declared : UInt16} {b a : Action} {c : Cursor}
    (hlength : declared.toNat = Element.commonHeaderSize + c.remaining)
    (h : ((readBody ctx declared b).run c).result = .ok a) : a.Legible ctx := by
  cases b with
  | setField content =>
    obtain ⟨content', c', w, hcontent, hlast⟩ := Reader.exists_of_run_bind h
    cases hlast
    exact legible_of_run_readSetField (congrArg Outcome.result hcontent)
  | unknown code length body =>
    cases h
    rwa [← c.length_rest_eq_remaining] at hlength
  | _ => exact (((yields_readBody ctx declared _) h).2 trivial).legible

/-- **An action that was read is read back.** -/
theorem readsBack_of_readFrom (hpart : ctx.registries.actions.PartOf types) {span : Bytes}
    {a : Action} (h : Element.ReadFrom ctx span a) : Element.ReadsBack ctx a := by
  have hblanks : Element.CodesBlanks ctx Action :=
    Element.codesBlanks_of_partOf rfl hpart (fun _ _ => rfl) fun _ _ _ => rfl
  obtain ⟨hform, declared, b, c, -, -, hlength, hbody⟩ :=
    Element.of_readFrom (f := readBody ctx) hblanks (fun _ => rfl)
      (fun declared b c a ha => (yields_readBody ctx declared b ha).1) h
  exact readsBack_of_sameForm hform (legible_of_run_readBody hlength hbody)

end Action

/-! ## Instructions -/

namespace Instruction

/-- An instruction that holds neither actions nor a body. -/
def IsPlain : Instruction → Prop
  | writeActions _ | applyActions _ | unknown _ _ _ => False
  | _ => True

theorem IsPlain.legible {i : Instruction} (h : i.IsPlain) : i.Legible ctx := by
  cases i with
  | writeActions actions | applyActions actions => exact h.elim
  | unknown code length body => exact h.elim
  | _ => trivial

/-- Reading keeps the code of a blank and the form in which it is read. -/
theorem yields_readBody (ctx : Context) (declared : UInt16) (b : Instruction) :
    (readBody ctx declared b).Yields fun i =>
      (i.code = b.code ∧ read ctx i = read ctx b) ∧ (b.IsPlain → i.IsPlain) := by
  cases b with
  | gotoTable tableId => exact .after fun _ => .after fun _ => .pure ⟨⟨rfl, rfl⟩, id⟩
  | writeMetadata metadata mask =>
    exact .after fun _ => .after fun _ => .after fun _ => .pure ⟨⟨rfl, rfl⟩, id⟩
  | writeActions actions | applyActions actions => exact .after fun _ => .pure ⟨⟨rfl, rfl⟩, id⟩
  | clearActions => exact .after fun _ => .pure ⟨⟨rfl, rfl⟩, id⟩
  | meter id => exact .after fun _ => .pure ⟨⟨rfl, rfl⟩, fun h => h⟩
  | unknown code length body => exact .after fun _ => .pure ⟨⟨rfl, rfl⟩, id⟩

/-- The actions that were read are read back, and are no more than are allowed. -/
theorem of_run_readActions (hpart : ctx.registries.actions.PartOf Action.types)
    {declared : UInt16} {actions : List Action} {c : Cursor}
    (h : ((readActions ctx declared).run c).result = .ok actions) :
    ctx.Allows actions.length ∧ ∀ a ∈ actions, Element.ReadsBack ctx a := by
  obtain ⟨u, c', w, -, hlist⟩ := Reader.exists_of_run_bind h
  exact Element.of_run_readList (fun _ _ => Action.readsBack_of_readFrom hpart) hlist

/-- An instruction that was read is legible, if the length that was declared covers what it was read
from. -/
theorem legible_of_run_readBody (hpart : ctx.registries.actions.PartOf Action.types)
    {declared : UInt16} {b i : Instruction} {c : Cursor}
    (hlength : declared.toNat = Element.commonHeaderSize + c.remaining)
    (h : ((readBody ctx declared b).run c).result = .ok i) : i.Legible ctx := by
  cases b with
  | writeActions actions | applyActions actions =>
    obtain ⟨actions', c', w, hactions, hlast⟩ := Reader.exists_of_run_bind h
    cases hlast
    exact of_run_readActions hpart (congrArg Outcome.result hactions)
  | unknown code length body =>
    cases h
    rwa [← c.length_rest_eq_remaining] at hlength
  | _ => exact (((yields_readBody ctx declared _) h).2 trivial).legible

/-- **An instruction that was read is read back.** -/
theorem readsBack_of_readFrom (hactions : ctx.registries.actions.PartOf Action.types)
    (hpart : ctx.registries.instructions.PartOf types) {span : Bytes} {i : Instruction}
    (h : Element.ReadFrom ctx span i) : Element.ReadsBack ctx i := by
  have hblanks : Element.CodesBlanks ctx Instruction :=
    Element.codesBlanks_of_partOf rfl hpart (fun _ _ => rfl) fun _ _ _ => rfl
  obtain ⟨hform, declared, b, c, -, -, hlength, hbody⟩ :=
    Element.of_readFrom (f := readBody ctx) hblanks (fun _ => rfl)
      (fun declared b c i hi => (yields_readBody ctx declared b hi).1) h
  exact readsBack_of_sameForm hform (legible_of_run_readBody hactions hlength hbody)

end Instruction

/-! ## Queue properties -/

namespace QueueProperty

/-- Reading keeps the code of a blank and the form in which it is read. -/
theorem yields_readPadded (ctx : Context) (declared : UInt16) (b : QueueProperty) :
    (readPadded declared b).Yields fun p => p.code = b.code ∧ read ctx p = read ctx b := by
  cases b with
  | minRate rate | maxRate rate => exact .after fun _ => .after fun _ => .pure ⟨rfl, rfl⟩
  | unknown code length body => exact .after fun _ => .after fun _ => .pure ⟨rfl, rfl⟩

/-- A property with a rate takes sixteen bytes. -/
theorem le_remaining_of_run_readRate {c : Cursor} {rate : UInt16}
    (h : (readRate.run c).result = .ok rate) : 8 ≤ c.remaining := by
  obtain ⟨rate', c₁, w₁, hrate, hrest⟩ := Reader.exists_of_run_bind h
  obtain ⟨u, c₂, w₂, hskip, -⟩ := Reader.exists_of_run_bind hrest
  obtain ⟨-, -, rfl⟩ := Reader.of_run_word hrate
  obtain ⟨hend, -⟩ := Reader.of_run_skip hskip
  rw [Cursor.pos_advance, Cursor.size_advance] at hend
  unfold Cursor.remaining
  omega

/-- A property that was read has the length that was declared, or, where its type is known, no more
than that. -/
theorem of_run_readPadded {declared : UInt16} {b p : QueueProperty} {c : Cursor}
    (hheader : headerSize ≤ declared.toNat)
    (hlength : declared.toNat = Element.commonHeaderSize + c.remaining)
    (h : ((readPadded declared b).run c).result = .ok p) :
    p.KeepsLength ∧ p.length ≤ declared.toNat := by
  unfold readPadded at h
  obtain ⟨u, c', w, hskip, hbody⟩ := Reader.exists_of_run_bind h
  obtain ⟨hend, rfl⟩ := Reader.of_run_skip hskip
  have hremaining : declared.toNat = headerSize + (c.advance 4).remaining := by
    change _ = 4 + (c.size - c.pos) at hlength
    change _ = 8 + (c.size - (c.pos + 4))
    omega
  cases b with
  | minRate rate | maxRate rate =>
    obtain ⟨rate', c', w', hrate, hlast⟩ := Reader.exists_of_run_bind hbody
    cases hlast
    have hfits := le_remaining_of_run_readRate (congrArg Outcome.result hrate)
    refine ⟨trivial, ?_⟩
    rw [hremaining]
    exact Nat.add_le_add_left hfits 8
  | unknown code length body =>
    cases hbody
    refine ⟨?_, Nat.max_le.mpr ⟨Nat.le_refl _, hheader⟩⟩
    rwa [← (c.advance 4).length_rest_eq_remaining] at hremaining

/-- **A property that was read is read back**, and is no longer than its span. -/
theorem readsBack_of_readFrom (hpart : ctx.registries.queueProperties.PartOf types) {span : Bytes}
    {p : QueueProperty} (h : Element.ReadFrom ctx span p) :
    Element.ReadsBack ctx p ∧ p.length ≤ span.length := by
  have hblanks : Element.CodesBlanks ctx QueueProperty :=
    Element.codesBlanks_of_partOf rfl hpart (fun _ _ => rfl) fun _ _ _ => rfl
  obtain ⟨hform, declared, b, c, hheader, hspan, hlength, hbody⟩ :=
    Element.of_readFrom (f := readPadded) hblanks (fun _ => rfl) (yields_readPadded ctx) h
  obtain ⟨hkeeps, hle⟩ := of_run_readPadded hheader hlength hbody
  exact ⟨readsBack_of_sameForm hform hkeeps, hspan ▸ hle⟩

end QueueProperty

/-! ## Elements of hellos -/

namespace HelloElement

/-- Reading keeps the code of a blank and the form in which it is read. -/
theorem yields_readBody (ctx : Context) (declared : UInt16) (b : HelloElement) :
    (readBody declared b).Yields fun e => e.code = b.code ∧ read ctx e = read ctx b := by
  cases b with
  | versionBitmap bitmaps => exact .after fun _ => .pure ⟨rfl, rfl⟩
  | unknown code length body => exact .after fun _ => .pure ⟨rfl, rfl⟩

/-- An element that was read has the length that was declared, and a bitmap as many words as this
length has room for. -/
theorem of_run_readBody {declared : UInt16} {b e : HelloElement} {c : Cursor}
    (hlength : declared.toNat = Element.commonHeaderSize + c.remaining)
    (h : ((readBody declared b).run c).result = .ok e) :
    e.KeepsLength ∧ e.length ≤ declared.toNat := by
  cases b with
  | versionBitmap bitmaps =>
    obtain ⟨words, c', w, hwords, hlast⟩ := Reader.exists_of_run_bind h
    cases hlast
    have hword : Reader.u32.Yields fun _ => True := fun _ _ _ => trivial
    obtain ⟨hcount, -⟩ := hword.times _ (congrArg Outcome.result hwords)
    refine ⟨trivial, ?_⟩
    change 4 + 4 * words.length ≤ declared.toNat
    change words.length = (declared.toNat - 4) / 4 at hcount
    change declared.toNat = 4 + c.remaining at hlength
    omega
  | unknown code length body =>
    cases h
    rw [← c.length_rest_eq_remaining] at hlength
    exact ⟨hlength, Nat.le_of_eq hlength.symm⟩

/-- **An element that was read is read back**, and is no longer than its span. -/
theorem readsBack_of_readFrom (hpart : ctx.registries.helloElements.PartOf types) {span : Bytes}
    {e : HelloElement} (h : Element.ReadFrom ctx span e) :
    Element.ReadsBack ctx e ∧ e.length ≤ span.length := by
  have hblanks : Element.CodesBlanks ctx HelloElement :=
    Element.codesBlanks_of_partOf rfl hpart (fun _ _ => rfl) fun _ _ _ => rfl
  obtain ⟨hform, declared, b, c, -, hspan, hlength, hbody⟩ :=
    Element.of_readFrom (f := readBody) hblanks (fun _ => rfl) (yields_readBody ctx) h
  obtain ⟨hkeeps, hle⟩ := of_run_readBody hlength hbody
  exact ⟨readsBack_of_sameForm hform hkeeps, hspan ▸ hle⟩

end HelloElement

/-! ## Meter bands -/

namespace MeterBand

/-- Reading keeps the kind of an effect, which the code of a band and the form in which it is read
depend on. -/
theorem yields_readEffect (declared : UInt16) (effect : BandEffect) :
    (readEffect declared effect).Yields fun effect' =>
      (∀ rate burstSize rate' burstSize',
        code ⟨rate, burstSize, effect'⟩ = code ⟨rate', burstSize', effect⟩) ∧
      ∀ n, readEffect n effect' = readEffect n effect := by
  cases effect with
  | dscpRemark precLevel =>
    exact .after fun _ => .after fun _ => .pure ⟨fun _ _ _ _ => rfl, fun _ => rfl⟩
  | experimenter id body =>
    exact .after fun _ => .after fun _ => .pure ⟨fun _ _ _ _ => rfl, fun _ => rfl⟩
  | drop => exact .after fun _ => .pure ⟨fun _ _ _ _ => rfl, fun _ => rfl⟩
  | unknown code length body =>
    exact .after fun _ => .pure ⟨fun _ _ _ _ => rfl, fun _ => rfl⟩

/-- Reading keeps the code of a blank and the form in which it is read. -/
theorem yields_readBody (ctx : Context) (declared : UInt16) (b : MeterBand) :
    (readBody declared b).Yields fun b' => b'.code = b.code ∧ read ctx b' = read ctx b := by
  refine .after fun rate => .after fun burstSize => ?_
  refine .bind (yields_readEffect declared b.effect) fun effect heffect => .pure ⟨?_, ?_⟩
  · exact heffect.1 _ _ _ _
  · unfold read
    simp only [heffect.2]

/-- An effect that was read fills no more than the bytes that it was read from, and one of an
unknown code just these. -/
theorem of_run_readEffect {declared : UInt16} {b : BandEffect} {effect : BandEffect} {c : Cursor}
    (hlength : declared.toNat = headerSize + c.remaining) (rate burstSize : UInt32)
    (h : ((readEffect declared b).run c).result = .ok effect) :
    (MeterBand.mk rate burstSize effect).KeepsLength ∧
      (MeterBand.mk rate burstSize effect).length ≤ declared.toNat := by
  change declared.toNat = 12 + (c.size - c.pos) at hlength
  cases b with
  | drop =>
    obtain ⟨u, c', w, hskip, hlast⟩ := Reader.exists_of_run_bind h
    cases hlast
    obtain ⟨hend, -⟩ := Reader.of_run_skip hskip
    refine ⟨trivial, ?_⟩
    change 16 ≤ declared.toNat
    omega
  | dscpRemark precLevel =>
    obtain ⟨precLevel', c', w, hlevel, hrest⟩ := Reader.exists_of_run_bind h
    obtain ⟨u, c'', w', hskip, hlast⟩ := Reader.exists_of_run_bind hrest
    cases hlast
    obtain ⟨-, -, rfl⟩ := Reader.of_run_word hlevel
    obtain ⟨hend, -⟩ := Reader.of_run_skip hskip
    rw [Cursor.pos_advance, Cursor.size_advance] at hend
    refine ⟨trivial, ?_⟩
    change 16 ≤ declared.toNat
    omega
  | experimenter id body =>
    obtain ⟨id', c', w, hid, hrest⟩ := Reader.exists_of_run_bind h
    obtain ⟨hfits, -, rfl⟩ := Reader.of_run_word hid
    rw [Reader.run_bind_of_ok (Reader.run_rest _)] at hrest
    cases hrest
    refine ⟨trivial, ?_⟩
    change 16 + (c.advance 4).rest.length ≤ declared.toNat
    change 4 ≤ c.size - c.pos at hfits
    rw [Cursor.length_rest_eq_remaining]
    change 16 + (c.size - (c.pos + 4)) ≤ declared.toNat
    omega
  | unknown code length body =>
    cases h
    change declared.toNat = 12 + c.remaining at hlength
    rw [← c.length_rest_eq_remaining] at hlength
    refine ⟨hlength, Nat.max_le.mpr ⟨Nat.le_refl _, ?_⟩⟩
    rw [hlength]
    exact Nat.le_add_right _ _

/-- A band that was read is no longer than the length that was declared, and one of an unknown code
just as long. -/
theorem of_run_readBody {declared : UInt16} {b b' : MeterBand} {c : Cursor}
    (hlength : declared.toNat = Element.commonHeaderSize + c.remaining)
    (h : ((readBody declared b).run c).result = .ok b') :
    b'.KeepsLength ∧ b'.length ≤ declared.toNat := by
  obtain ⟨rate, c₁, w₁, hrate, hrest⟩ := Reader.exists_of_run_bind h
  obtain ⟨burstSize, c₂, w₂, hburst, hlast⟩ := Reader.exists_of_run_bind hrest
  obtain ⟨effect, c₃, w₃, heffect, hpure⟩ := Reader.exists_of_run_bind hlast
  cases hpure
  obtain ⟨-, -, rfl⟩ := Reader.of_run_word hrate
  obtain ⟨hfits, -, rfl⟩ := Reader.of_run_word hburst
  refine of_run_readEffect ?_ rate burstSize (congrArg Outcome.result heffect)
  change declared.toNat = 4 + (c.size - c.pos) at hlength
  change 4 ≤ c.size - (c.pos + 4) at hfits
  change declared.toNat = 12 + (c.size - (c.pos + 4 + 4))
  omega

/-- **A band that was read is read back**, and is no longer than its span. -/
theorem readsBack_of_readFrom (hpart : ctx.registries.meterBands.PartOf types) {span : Bytes}
    {b : MeterBand} (h : Element.ReadFrom ctx span b) :
    Element.ReadsBack ctx b ∧ b.length ≤ span.length := by
  have hblanks : Element.CodesBlanks ctx MeterBand :=
    Element.codesBlanks_of_partOf rfl hpart (fun _ _ => rfl) fun _ _ _ => rfl
  obtain ⟨hform, declared, b', c, -, hspan, hlength, hbody⟩ :=
    Element.of_readFrom (f := readBody) hblanks (fun _ => rfl) (yields_readBody ctx) h
  obtain ⟨hkeeps, hle⟩ := of_run_readBody hlength hbody
  exact ⟨readsBack_of_sameForm hform hkeeps, hspan ▸ hle⟩

end MeterBand

/-! ## Properties of tables -/

namespace ElementId

/-- **An element id that was read is read back**: it is as long as its span. -/
theorem wellFormed_of_readFrom {span : Bytes} {e : ElementId} (h : Element.ReadFrom ctx span e) :
    e.WellFormed := by
  obtain ⟨code, declared, hpeek, hheader, hlength, hrun⟩ := h
  have hbody := Element.of_run_readHeader_bind (f := fun header =>
    Reader.rest >>= fun body => pure (ElementId.mk header.1 header.2 body)) hrun hpeek
  rw [Reader.run_bind_of_ok (Reader.run_rest _)] at hbody
  cases hbody
  change declared.toNat = 4 + (Cursor.rest _).length
  rw [Cursor.length_rest_eq_remaining]
  change 4 ≤ declared.toNat at hheader
  change declared.toNat = 4 + (span.length - (0 + 4))
  omega

end ElementId

namespace TableProperty

/-- Reading keeps the code of a blank and the form in which it is read. -/
theorem yields_readBody (ctx : Context) (declared : UInt16) (b : TableProperty) :
    (readBody ctx declared b).Yields fun p => p.code = b.code ∧ read ctx p = read ctx b := by
  cases b with
  | actions use miss ids => cases use <;> exact .after fun _ => .pure ⟨rfl, rfl⟩
  | fields use miss headers => cases use <;> exact .after fun _ => .pure ⟨rfl, rfl⟩
  | _ => exact .after fun _ => .pure ⟨rfl, rfl⟩

/-- The element ids that were read are well formed, and are no more than are allowed. -/
theorem of_run_readIds {length : Nat} {ids : List ElementId} {c : Cursor}
    (h : ((Element.readList ctx length).run c).result = .ok ids) :
    ctx.Allows ids.length ∧ ∀ e ∈ ids, e.WellFormed :=
  Element.of_run_readList (fun _ _ => ElementId.wellFormed_of_readFrom) h

/-- A header word that was read has a field code of seven bits. -/
theorem yields_readFieldHeader : readFieldHeader.Yields fun h => h.field < 128 := by
  refine .after fun word => .pure (UInt8.lt_iff_toNat_lt.mpr ?_)
  rw [OxmHeader.toNat_ofWord_field]
  exact Nat.mod_lt _ (by decide)

/-- A property that was read is legible, if the length that was declared covers what it was read
from. -/
theorem legible_of_run_readBody {declared : UInt16} {b p : TableProperty} {c : Cursor}
    (hlength : declared.toNat = Element.commonHeaderSize + c.remaining)
    (h : ((readBody ctx declared b).run c).result = .ok p) : p.Legible ctx := by
  cases b with
  | instructions miss ids | actions use miss ids =>
    obtain ⟨ids', c', w, hids, hlast⟩ := Reader.exists_of_run_bind h
    cases hlast
    exact of_run_readIds (congrArg Outcome.result hids)
  | nextTables miss tables =>
    cases h
    trivial
  | fields use miss headers =>
    obtain ⟨headers', c', w, hheaders, hlast⟩ := Reader.exists_of_run_bind h
    cases hlast
    exact (yields_readFieldHeader.times _ (congrArg Outcome.result hheaders)).2
  | unknown code length body =>
    cases h
    rwa [← c.length_rest_eq_remaining] at hlength

/-- **A property that was read is read back.** -/
theorem readsBack_of_readFrom (hpart : ctx.registries.tableProperties.PartOf types) {span : Bytes}
    {p : TableProperty} (h : Element.ReadFrom ctx span p) : Element.ReadsBack ctx p := by
  have hblanks : Element.CodesBlanks ctx TableProperty :=
    Element.codesBlanks_of_partOf rfl hpart (fun _ _ => rfl) fun _ _ _ => rfl
  obtain ⟨hform, declared, b, c, -, -, hlength, hbody⟩ :=
    Element.of_readFrom (f := readBody ctx) hblanks (fun _ => rfl) (yields_readBody ctx) h
  exact readsBack_of_sameForm hform (legible_of_run_readBody hlength hbody)

end TableProperty

/-! ## All families -/

/-- **In every family, an element that was read is read back.** -/
theorem Family.readsBack_of_readFrom (hreg : ctx.registries.ElementsPartOf .standard) (F : Family)
    {span : Bytes} {e : F.Member} (h : Element.ReadFrom ctx span e) : Element.ReadsBack ctx e := by
  cases F with
  | action => exact Action.readsBack_of_readFrom hreg.actions h
  | instruction => exact Instruction.readsBack_of_readFrom hreg.actions hreg.instructions h
  | queueProperty => exact (QueueProperty.readsBack_of_readFrom hreg.queueProperties h).1
  | helloElement => exact (HelloElement.readsBack_of_readFrom hreg.helloElements h).1
  | meterBand => exact (MeterBand.readsBack_of_readFrom hreg.meterBands h).1
  | tableProperty => exact TableProperty.readsBack_of_readFrom hreg.tableProperties h
  | elementId => exact ElementId.readsBack (ElementId.wellFormed_of_readFrom h)

namespace Element

/-- **A list that was read is stable**, in every family: whatever the bytes were, the list either
has no wire form, because a length in it does not fit 16 bits, or has one that is read as this
list again, all of it. -/
theorem readList_writeList_of_run (ctx : Context)
    (hreg : ctx.registries.ElementsPartOf .standard) (F : Family) (buf : Bytes)
    (start length : Nat) (es : List F.Member)
    (h : ((readList ctx length : Reader (List F.Member)).run (Cursor.at buf start)).result =
      .ok es) :
    (∃ what n, (writeList es).encode = .error (.lengthOverflow what n)) ∨
      ∃ b, (writeList es).encode = .ok b ∧
        (readList ctx b.length : Reader (List F.Member)).run (Cursor.start b) =
          ⟨.ok es, Cursor.at b b.length, 0⟩ := by
  rcases hencode : (writeList es).encode with error | b
  · obtain ⟨p, -, -, rfl⟩ := (F.accounts_writeList es).of_error error hencode
    exact Or.inl ⟨p.what, p.declared, rfl⟩
  · obtain ⟨hlimit, hback⟩ := of_run_readList (fun _ _ => F.readsBack_of_readFrom hreg) h
    have hrun := run_readList_at hlimit hback hencode [] []
    rw [List.nil_append, List.append_nil, List.length_nil, Nat.zero_add] at hrun
    exact Or.inr ⟨b, rfl, hrun⟩

/-- A context that has forgotten one action and one instruction, and allows three members. -/
def cautious : Context where
  registries := { Registries.standard with
    actions := Action.types.unregister 11
    instructions := Instruction.types.unregister 5 }
  elementLimit := some 3

theorem elementsPartOf_cautious : cautious.registries.ElementsPartOf .standard where
  actions := Registry.partOf_unregister _ _
  instructions := Registry.partOf_unregister _ _
  queueProperties := Registry.PartOf.refl _
  helloElements := Registry.PartOf.refl _
  meterBands := Registry.PartOf.refl _
  tableProperties := Registry.PartOf.refl _

/-- A byte, and an instruction around a set-field action that is not filled up, a forgotten action
and three bytes that are no action, all behind padding that is not zero.  Then an instruction that
is longer than its type, a forgotten one, one more than is allowed, and a byte. -/
def sloppy : Bytes :=
  [9] ++ [0, 4, 0, 30, 1, 2, 3, 4, 0, 25, 0, 11, 0x80, 0, 0x0a, 2, 8, 0, 7, 0, 11, 0, 8, 5, 6, 7, 8,
    0xff, 0xff, 0xff, 0, 1, 0, 12, 7, 1, 2, 3, 9, 9, 9, 9, 0, 5, 0, 5, 1, 0, 1, 0, 8, 1, 0, 0, 0] ++
    [9]

/-- What is left over is dropped at the first reading, and nothing more at the second one. -/
theorem readList_writeList_of_run_sloppy :
    ((readList cautious 55 : Reader (List Instruction)).run (Cursor.at sloppy 1)).result =
        .ok [.applyActions [.setField (.known ipv4Type), .unknown 11 8 [5, 6, 7, 8]],
          .gotoTable 7, .unknown 5 5 [1]] ∧
      ∃ b, (writeList [Instruction.applyActions [.setField (.known ipv4Type),
          .unknown 11 8 [5, 6, 7, 8]], .gotoTable 7, .unknown 5 5 [1]]).encode = .ok b ∧
        (readList cautious b.length : Reader (List Instruction)).run (Cursor.start b) =
          ⟨.ok [.applyActions [.setField (.known ipv4Type), .unknown 11 8 [5, 6, 7, 8]],
            .gotoTable 7, .unknown 5 5 [1]], Cursor.at b b.length, 0⟩ := by
  have hrun : ((readList cautious 55 : Reader (List Instruction)).run
      (Cursor.at sloppy 1)).result = .ok [.applyActions [.setField (.known ipv4Type),
        .unknown 11 8 [5, 6, 7, 8]], .gotoTable 7, .unknown 5 5 [1]] := by
    with_unfolding_all rfl
  refine ⟨hrun, ?_⟩
  rcases readList_writeList_of_run cautious elementsPartOf_cautious .instruction sloppy 1 55 _ hrun
    with ⟨what, n, herror⟩ | hback
  · exact nomatch herror
  · exact hback

end Element
end OpenFlow
