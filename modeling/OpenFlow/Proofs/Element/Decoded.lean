import OpenFlow.Proofs.Element.Recovery
import OpenFlow.Proofs.Wire.Yields

/-!
# What a list that was read is made of

From a list that was read one can go back to its elements: there are no more of them than the
limit allows, each was read from a span of its own, which its header covers, and the room that
the spans take is a part of the region.  What an element was read in the form of is a blank of
the code in its header, so it has this code and will be read in the same form again.

Main definitions:

* `Element.ReadFrom`: an element is what its own span reads as.
* `Element.CodesBlanks`: the blank that stands for a code has this code.

Main statements:

* `Element.of_run_readMembers`: the elements of a region were read from spans of their own.
* `Element.of_run_readList`: the elements of a list have what every element that was read has.
* `Element.listLength_le_of_run`: they take no more room than the region, filled up, has.
* `Element.sameForm_of_readFrom`: an element that was read is read in the same form again.
-/

namespace OpenFlow

/-- In a registry of blanks under their own codes, what is found for a code has this code. -/
theorem Registry.code_of_lookup? {ε : Type} {family : String} {blanks : List ε}
    {codeOf : ε → UInt16} {code : UInt16} {b : ε}
    (h : (Registry.mk family (blanks.map fun e => (codeOf e, e))).lookup? code = some b) :
    codeOf b = code := by
  obtain ⟨entry, hfind, rfl⟩ := Option.map_eq_some_iff.mp h
  obtain ⟨e, -, rfl⟩ := List.mem_map.mp (List.mem_of_find?_eq_some hfind)
  simpa using List.find?_some hfind

namespace Element

variable {ε : Type} [Element ε] {ctx : Context}

/-! ## Elements and their spans -/

/-- An element was read from a span: the header in front of the span gives its code, and covers
the span. -/
def ReadFrom (ctx : Context) (span : Bytes) (e : ε) : Prop :=
  ∃ code declared, Bytes.peekHeader? span = some (code, declared) ∧
    headerSize ε ≤ declared.toNat ∧ span.length = declared.toNat ∧
    (readSpan (ε := ε) ctx code declared span).result = .ok e

/-- What comes of a header and what follows it was read behind the header. -/
theorem of_run_readHeader_bind {α : Type} {f : UInt16 × UInt16 → Reader α} {c : Cursor} {a : α}
    (h : ((readHeader >>= f).run c).result = .ok a) {code declared : UInt16}
    (hpeek : Bytes.peekHeader? c.rest = some (code, declared)) :
    ((f (code, declared)).run (c.advance commonHeaderSize)).result = .ok a := by
  obtain ⟨header, c', w, hheader, hrest⟩ := Reader.exists_of_run_bind h
  unfold readHeader at hheader
  have hok := congrArg Outcome.result hheader
  obtain ⟨code', c₁, w₁, hcode, hok⟩ := Reader.exists_of_run_bind hok
  obtain ⟨declared', c₂, w₂, hdeclared, hok⟩ := Reader.exists_of_run_bind hok
  obtain ⟨hpeek', rfl⟩ := Reader.peekHeader?_of_run hcode hdeclared
  cases hpeek.symm.trans hpeek'
  rw [Reader.run_bind_of_ok hcode, Reader.run_bind_of_ok hdeclared] at hheader
  cases hheader
  exact hrest

/-- A header that is in front of a string of bytes is in front of its first bytes, if they cover
it. -/
theorem peekHeader?_take {bs : Bytes} {n : Nat} (hn : commonHeaderSize ≤ n)
    {header : UInt16 × UInt16} (h : Bytes.peekHeader? bs = some header) :
    Bytes.peekHeader? (bs.take n) = some header := by
  obtain ⟨k, rfl⟩ := Nat.exists_eq_add_of_le' hn
  rcases bs with _ | ⟨b₀, _ | ⟨b₁, _ | ⟨b₂, _ | ⟨b₃, bs⟩⟩⟩⟩
  case cons.cons.cons.cons => exact h
  all_goals exact nomatch h

/-! ## Codes -/

/-- The blank that stands for a code has this code, and the form in which it is read does not depend
on the length that is declared. -/
def CodesBlanks (ctx : Context) (ε : Type) [Element ε] : Prop :=
  ∀ code declared, Element.code (blank ctx code declared : ε) = code ∧
    ∀ n, read ctx (blank ctx code n : ε) = read ctx (blank ctx code declared)

/-- A part of a registry of blanks under their own codes has blanks of the right codes, if an
element of an unknown code has that code. -/
theorem codesBlanks_of_partOf {types : Registry ε} (htypes : registry? ctx.registries = some types)
    {family : String} {blanks : List ε}
    (hpart : types.PartOf ⟨family, blanks.map fun e => (Element.code e, e)⟩)
    (hcode : ∀ code n, Element.code (generic code n : ε) = code)
    (hread : ∀ code m n, read ctx (generic code m : ε) = read ctx (generic code n)) :
    CodesBlanks ctx ε := by
  intro code declared
  cases h : types.lookup? code with
  | none =>
    refine ⟨?_, fun n => ?_⟩
    · rw [blank_of_lookup_none htypes h, hcode]
    · rw [blank_of_lookup_none htypes h, blank_of_lookup_none htypes h, hread code n declared]
  | some b =>
    refine ⟨?_, fun n => ?_⟩
    · rw [blank_of_lookup htypes h]
      exact Registry.code_of_lookup? (hpart code b h)
    · rw [blank_of_lookup htypes h, blank_of_lookup htypes h]

/-- **An element that was read is read in the same form again**, if reading keeps the code and the
form of a blank. -/
theorem sameForm_of_readFrom (hblanks : CodesBlanks ctx ε)
    (hkeeps : ∀ b : ε, (read ctx b).Yields fun e => code e = code b ∧ read ctx e = read ctx b)
    {span : Bytes} {e : ε} (h : ReadFrom ctx span e) : SameForm ctx e := by
  obtain ⟨code, declared, -, -, -, hread⟩ := h
  obtain ⟨hcode, hform⟩ := hkeeps _ hread
  intro n
  rw [hcode, (hblanks code declared).1, (hblanks code declared).2 n, hform]

/-! ## Lists and their elements -/

variable [Framed ε] {allowance : Option Nat} {region : Bytes} {c : Cursor} {es : List ε}

/-- What one step of reading a list can have done: it ended the list, or it read an element from
the first bytes of the region and went on behind the room of the element. -/
theorem cases_of_run_readMembers
    (h : ((readMembers ctx allowance region : Reader (List ε)).run c).result = .ok es) :
    es = [] ∨ ∃ n e rest c', es = e :: rest ∧ allowance ≠ some 0 ∧ n ≤ region.length ∧
      ReadFrom ctx (region.take n) e ∧
      ((readMembers ctx (allowance.map (· - 1)) (region.drop (occupied ε n)) :
        Reader (List ε)).run c').result = .ok rest := by
  have hnil (w : Nat) (hrun : (⟨.ok [], c, w⟩ : Outcome (List ε)).result = .ok es) : es = [] := by
    cases hrun
    rfl
  cases hpeek : Bytes.peekHeader? region with
  | none =>
    rw [run_readMembers_of_length_lt ((Bytes.peekHeader?_eq_none_iff region).mp hpeek)] at h
    exact Or.inl (hnil 0 h)
  | some header =>
    obtain ⟨code, declared⟩ := header
    by_cases hallow : allowance = some 0
    · rw [readMembers_eq, hpeek] at h
      simp only [if_pos hallow] at h
      exact Or.inl (hnil 0 h)
    by_cases hlow : declared.toNat < headerSize ε
    · rw [run_readMembers_of_malformed hpeek hallow hlow] at h
      exact nomatch h
    have hheader : headerSize ε ≤ declared.toNat := Nat.le_of_not_lt hlow
    by_cases hover : region.length < declared.toNat
    · rw [run_readMembers_of_overrun hpeek hallow hheader hover] at h
      exact Or.inl (hnil 0 h)
    have hfits : declared.toNat ≤ region.length := Nat.le_of_not_lt hover
    rw [run_readMembers_of_span hpeek hallow hheader hfits rfl] at h
    rcases hspan : (readSpan (ε := ε) ctx code declared (region.take declared.toNat)).result
      with error | e
    · rw [hspan] at h
      cases herror : error.isTruncation with
      | true =>
        rw [run_goOn_truncation _ herror] at h
        exact Or.inl (hnil 0 h)
      | false =>
        rw [run_goOn_error _ herror] at h
        exact nomatch h
    · rw [hspan, run_goOn_ok] at h
      rcases hrest : ((readMembers ctx (allowance.map (· - 1))
        (region.drop (occupied ε declared.toNat)) : Reader (List ε)).run c).result with error | rest
      · rw [hrest] at h
        exact nomatch h
      · rw [hrest] at h
        cases h
        have hcommon : commonHeaderSize ≤ declared.toNat :=
          Nat.le_trans Framed.commonHeaderSize_le hheader
        have hread : ReadFrom ctx (region.take declared.toNat) e :=
          ⟨code, declared, peekHeader?_take hcommon hpeek, hheader,
            List.length_take_of_le hfits, hspan⟩
        exact Or.inr ⟨declared.toNat, e, rest, c, rfl, hallow, hfits, hread, hrest⟩

/-- **The elements of a list that was read** are no more than are allowed, and each of them was
read from a span of its own. -/
theorem of_run_readMembers
    (h : ((readMembers ctx allowance region : Reader (List ε)).run c).result = .ok es) :
    (∀ k, allowance = some k → es.length ≤ k) ∧ ∀ e ∈ es, ∃ span, ReadFrom ctx span e := by
  induction es generalizing allowance region c with
  | nil => exact ⟨fun k _ => Nat.zero_le k, fun e he => absurd he List.not_mem_nil⟩
  | cons e es ih =>
    rcases cases_of_run_readMembers h with hnil |
      ⟨n, e', rest, c', hcons, hallow, -, hread, hrest⟩
    · cases hnil
    · cases hcons
      obtain ⟨hlength, hall⟩ := ih hrest
      refine ⟨fun k hk => ?_, fun d hd => ?_⟩
      · have hpos : k ≠ 0 := fun hzero => hallow (hzero ▸ hk)
        have hle := hlength (k - 1) (congrArg (Option.map (· - 1)) hk)
        rw [List.length_cons]
        omega
      · rcases List.mem_cons.mp hd with rfl | hd
        · exact ⟨_, hread⟩
        · exact hall d hd

omit [Framed ε] in
/-- What a list that is read at a cursor gives is what its region gives. -/
theorem result_readList (ctx : Context) (length : Nat) (c : Cursor) :
    ((readList ctx length : Reader (List ε)).run c).result =
      ((readMembers ctx ctx.elementLimit (c.rest.take length) : Reader (List ε)).run c).result := by
  rw [run_readList]
  rcases (readMembers ctx ctx.elementLimit (c.rest.take length) : Reader (List ε)).run c with
    ⟨_ | members, c', w⟩
  · rfl
  · rfl

/-- The elements of a list that was read at a cursor are no more than are allowed, and have what
every element that was read has. -/
theorem of_run_readList {P : ε → Prop} {length : Nat}
    (hread : ∀ span e, ReadFrom ctx span e → P e)
    (h : ((readList ctx length : Reader (List ε)).run c).result = .ok es) :
    ctx.Allows es.length ∧ ∀ e ∈ es, P e := by
  rw [result_readList] at h
  obtain ⟨hlimit, hall⟩ := of_run_readMembers h
  refine ⟨hlimit, fun e he => ?_⟩
  obtain ⟨span, hspan⟩ := hall e he
  exact hread span e hspan

/-! ## Room -/

/-- A way to round up lengths by which rooms that follow each other in a region add up to no more
than the region, rounded up. -/
structure Stacks (room : Nat → Nat) : Prop where
  mono {m n : Nat} (h : m ≤ n) : room m ≤ room n
  add_le {m n : Nat} (h : m ≤ n) : room m + room (n - room m) ≤ room n

theorem stacks_id : Stacks id where
  mono h := h
  add_le h := Nat.le_of_eq (Nat.add_sub_cancel' h)

theorem stacks_align8 : Stacks align8 where
  mono h := by
    unfold align8
    omega
  add_le h := by
    unfold align8
    omega

/-- **A list that was read takes no more room than its region**, rounded up, if its elements are no
longer than their spans. -/
theorem listLength_le_of_run (hroom : Stacks (occupied ε))
    (hlength : ∀ span (e : ε), ReadFrom ctx span e → length e ≤ span.length)
    (h : ((readMembers ctx allowance region : Reader (List ε)).run c).result = .ok es) :
    listLength es ≤ occupied ε region.length := by
  induction es generalizing allowance region c with
  | nil => exact Nat.zero_le _
  | cons e es ih =>
    rcases cases_of_run_readMembers h with hnil |
      ⟨n, e', rest, c', hcons, -, hfits, hread, hrest⟩
    · cases hnil
    · cases hcons
      have hspan := hlength _ e hread
      rw [List.length_take_of_le hfits] at hspan
      have hothers := ih hrest
      rw [List.length_drop] at hothers
      have hfirst := hroom.mono hspan
      have hboth := hroom.add_le hfits
      change occupied ε (length e) + listLength es ≤ _
      omega

/-- The same for a list that was read at a cursor. -/
theorem listLength_le_of_run_readList (hroom : Stacks (occupied ε))
    (hlength : ∀ span (e : ε), ReadFrom ctx span e → length e ≤ span.length) {n : Nat}
    (h : ((readList ctx n : Reader (List ε)).run c).result = .ok es) :
    listLength es ≤ occupied ε (min n c.remaining) := by
  rw [result_readList] at h
  have hle := listLength_le_of_run hroom hlength h
  rwa [List.length_take, c.length_rest_eq_remaining] at hle

end Element
end OpenFlow
