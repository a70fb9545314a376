import OpenFlow.Proofs.Element.Step
import OpenFlow.Proofs.Wire.Agree

/-!
# Elements that keep to their header

An element opens with its type code and its length, and its wire form has as many bytes
as it declares.  A length that does not fit 16 bits is refused, and nothing else is.
`Element.Lawful` collects this for a family, and the lists of such a family are then
read back as soon as their elements are.

Main definitions:

* `Element.Lawful`: the law of a family.
* `Element.SameForm`: the blank that an element is read into has the form of the element.
* `Element.ReadsBack`: an element is what its own wire form reads as.
* `Context.Allows`: lists of some length are not cut off by the limit of a context.

Main statement:

* `Element.agree_list`: writing and reading a list, for elements that are read back.
-/

namespace OpenFlow

namespace Bytes

/-- A header in front of a string of bytes is the one that was written there. -/
theorem peekHeader?_append (code length : UInt16) (bs : Bytes) :
    peekHeader? (ofUInt16 code ++ (ofUInt16 length ++ bs)) = some (code, length) := by
  have hpair (n : UInt16) : ∃ b₀ b₁, ofUInt16 n = [b₀, b₁] :=
    ⟨_, _, rfl⟩
  have hword (n : UInt16) {b₀ b₁ : UInt8} (h : ofUInt16 n = [b₀, b₁]) :
      UInt16.ofNat (value [b₀, b₁]) = n := by
    rw [← h, value_ofUInt16, UInt16.ofNat_toNat]
  obtain ⟨b₀, b₁, hcode⟩ := hpair code
  obtain ⟨b₂, b₃, hlength⟩ := hpair length
  rw [hcode, hlength]
  change some (UInt16.ofNat (value [b₀, b₁]), UInt16.ofNat (value [b₂, b₃])) = _
  rw [hword code hcode, hword length hlength]

end Bytes

namespace Context

/-- The context lets lists of `n` members be read in full. -/
def Allows (ctx : Context) (n : Nat) : Prop := ∀ k, ctx.elementLimit = some k → n ≤ k

/-- Where there is no limit, all lists are read in full. -/
theorem Allows.of_unlimited {ctx : Context} (h : ctx.elementLimit = none) (n : Nat) :
    ctx.Allows n := by
  intro k hk
  rw [h] at hk
  cases hk

end Context

namespace Element

/-- A family whose elements are written with their code and their length in front, and
with as many bytes as they declare. -/
class Lawful (ε : Type) [Element ε] : Prop extends Framed ε where
  write_eq (e : ε) : ∃ body : Writer, Writer.Uniform body ∧
    write e = writeHeader (code e) (length e) ++ body
  headerSize_le_length (e : ε) : headerSize ε ≤ length e
  spans_write {e : ε} (h : length e < 65536) : Writer.Spans (write e) (length e)

instance (code : UInt16) (length : Nat) : Writer.Uniform (writeHeader code length) :=
  inferInstanceAs (Writer.Uniform (Writer.u16 _ ++ Writer.length16 _ _))

theorem encode_writeHeader_eq_ok_iff {code : UInt16} {length : Nat} {bs : Bytes} :
    (writeHeader code length).encode = .ok bs ↔
      length < 65536 ∧ bs = Bytes.ofUInt16 code ++ Bytes.ofUInt16 (UInt16.ofNat length) := by
  unfold writeHeader
  rw [Writer.encode_append_eq_ok_iff]
  constructor
  · rintro ⟨as, has, cs, hcs, rfl⟩
    rw [Writer.encode_u16] at has
    obtain ⟨hlt, rfl⟩ := Writer.encode_length16_eq_ok_iff.mp hcs
    exact ⟨hlt, by rw [Except.ok.inj has]⟩
  · rintro ⟨hlt, rfl⟩
    exact ⟨_, Writer.encode_u16 _, _, Writer.encode_length16_eq_ok_iff.mpr ⟨hlt, rfl⟩, rfl⟩

/-- A header takes four bytes. -/
theorem spans_writeHeader {code : UInt16} {length : Nat} (h : length < 65536) :
    Writer.Spans (writeHeader code length) commonHeaderSize :=
  Writer.Spans.append (Writer.Spans.u16 code) (Writer.Spans.length16 h)

/-- An element with the header that all families share takes the length that it declares, if
what follows the header fills it. -/
theorem spans_write_of_body {code : UInt16} {length : Nat} {w : Writer} [Writer.Uniform w]
    (hlt : length < 65536) (hle : commonHeaderSize ≤ length)
    (hw : Writer.Spans w (length - commonHeaderSize)) :
    Writer.Spans (writeHeader code length ++ w) length :=
  (Writer.Spans.append (spans_writeHeader hlt) hw).of_size_eq (Nat.add_sub_cancel' hle)

/-- A header whose length fits is read back, and what follows it may depend on it. -/
theorem agree_header {α : Type} {w : Writer} [Writer.Uniform w] {code : UInt16} {length : Nat}
    {g : UInt16 × UInt16 → Reader α} {c : Cursor} {n : Nat} {tail : Bytes} {a : α}
    (hlt : length < 65536)
    (h : Agree w (g (code, UInt16.ofNat length)) (c.advance commonHeaderSize) n tail a) :
    Agree (writeHeader code length ++ w) (readHeader >>= g) c (commonHeaderSize + n) tail a := by
  refine Agree.bind (fun tail => ?_) h
  refine Agree.of_append_skip ?_
  unfold writeHeader readHeader
  rw [Writer.append_assoc]
  exact Agree.of_size_eq (Agree.u16 (Agree.length16 hlt (Agree.pure _ _ tail))) rfl

variable {ε : Type} [Element ε]

section Lawful

variable [Lawful ε]

instance (e : ε) : Writer.Uniform (write e) := by
  obtain ⟨body, hbody, hwrite⟩ := Lawful.write_eq e
  rw [hwrite]
  infer_instance

instance (es : List ε) : Writer.Uniform (writeList es) :=
  inferInstanceAs (Writer.Uniform (Writer.each _ es))

/-- An element that is written declares a length that fits 16 bits, with its code in front
of it, and it has that length. -/
theorem of_encode_eq_ok {e : ε} {bs : Bytes} (h : (write e).encode = .ok bs) :
    length e < 65536 ∧ bs.length = length e ∧
      ∀ tail, Bytes.peekHeader? (bs ++ tail) = some (code e, UInt16.ofNat (length e)) := by
  obtain ⟨body, hbody, hwrite⟩ := Lawful.write_eq e
  have h' := h
  rw [hwrite] at h'
  obtain ⟨as, has, cs, hcs, rfl⟩ := Writer.encode_append_eq_ok_iff.mp h'
  obtain ⟨hlt, rfl⟩ := encode_writeHeader_eq_ok_iff.mp has
  refine ⟨hlt, (Lawful.spans_write hlt).length_eq h, fun tail => ?_⟩
  rw [List.append_assoc, List.append_assoc]
  exact Bytes.peekHeader?_append _ _ _

/-- The wire form of a list has as many bytes as the room that its elements take. -/
theorem spans_writeList {es : List ε} (h : ∀ e ∈ es, length e < 65536) :
    Writer.Spans (writeList es) (listLength es) :=
  Writer.Spans.each fun e he =>
    Writer.Spans.padded (Lawful.spans_write (h e he)) (Framed.le_occupied _)

/-- In a list, an element takes no more room than the list does. -/
theorem length_le_listLength {e : ε} {es : List ε} (he : e ∈ es) : length e ≤ listLength es :=
  Nat.le_trans (Framed.le_occupied _) (le_total_of_mem (f := fun e => occupied ε (length e)) he)

/-- In a list that a 16-bit length covers, behind `k` other bytes, each element has a length
that fits. -/
theorem length_lt_of_mem {k : Nat} {es : List ε} (h : k + listLength es < 65536) :
    ∀ e ∈ es, length e < 65536 := by
  intro e he
  have hle := length_le_listLength he
  omega

/-- The elements of a list that is written declare lengths that fit 16 bits. -/
theorem length_lt_of_encode_writeList {es : List ε} {bs : Bytes}
    (h : (writeList es).encode = .ok bs) : ∀ e ∈ es, length e < 65536 := by
  induction es generalizing bs with
  | nil =>
    intro e he
    exact absurd he (List.not_mem_nil)
  | cons e es ih =>
    obtain ⟨xs, hxs, ys, hys, -⟩ := Writer.encode_each_cons_eq_ok_iff.mp h
    obtain ⟨as, has, -⟩ := Writer.encode_padded_eq_ok_iff.mp hxs
    intro e' he'
    rcases List.mem_cons.mp he' with rfl | he'
    · exact (of_encode_eq_ok has).1
    · exact ih hys e' he'

end Lawful

/-! ## Blanks -/

section Blanks

variable {ctx : Context}

/-- A code that a registry knows is read into its blank. -/
theorem blank_of_lookup {types : Registry ε} (htypes : registry? ctx.registries = some types)
    {code : UInt16} {b : ε} (h : types.lookup? code = some b) (declared : UInt16) :
    blank ctx code declared = b := by
  unfold blank
  rw [htypes]
  change (types.lookup? code).getD (generic code declared) = b
  rw [h]
  rfl

/-- A code that a registry does not know is read into what stands for unknown ones. -/
theorem blank_of_lookup_none {types : Registry ε}
    (htypes : registry? ctx.registries = some types) {code : UInt16}
    (h : types.lookup? code = none) (declared : UInt16) :
    (blank ctx code declared : ε) = generic code declared := by
  unfold blank
  rw [htypes]
  change (types.lookup? code).getD (generic code declared) = generic code declared
  rw [h]
  rfl

/-- An element is read like the blank that stands for its code. -/
def SameForm (ctx : Context) (e : ε) : Prop :=
  ∀ declared, read ctx (blank ctx (code e) declared) = read ctx e

/-- The code of an element stands for the same blank as with the standard registries. -/
def KnowsType (ctx : Context) (e : ε) : Prop :=
  ∀ declared, (blank ctx (code e) declared : ε) = blank {} (code e) declared

theorem knowsType_of_standard (hreg : ctx.registries = .standard) (e : ε) : KnowsType ctx e := by
  intro declared
  unfold blank
  rw [hreg]

end Blanks

/-! ## Reading back -/

/-- An element whose wire form, as a buffer of its own, reads as this element again.  The
reader may leave padding at the end untouched. -/
def ReadsBack (ctx : Context) (e : ε) : Prop :=
  ∀ bs, (write e).encode = .ok bs →
    ∃ c, readSpan ctx (code e) (UInt16.ofNat (length e)) bs = ⟨.ok e, c, 0⟩

variable [Lawful ε] {ctx : Context}

/-- An element is read back if, behind the header, its reader agrees with a first part of its
writer and leaves the second part. -/
theorem ReadsBack.of_agree {e : ε} {v w : Writer} [Writer.Uniform v] [Writer.Uniform w]
    {f : UInt16 × UInt16 → Reader ε} {n : Nat}
    (hwrite : write e = writeHeader (code e) (length e) ++ (v ++ w)) (hform : SameForm ctx e)
    (hread : read ctx e = readHeader >>= f)
    (h : length e < 65536 → ∀ c tail, w.encode = .ok tail →
      Agree v (f (code e, UInt16.ofNat (length e))) c n tail e) :
    ReadsBack ctx e := by
  intro bs hbs
  have hlt := (of_encode_eq_ok hbs).1
  rw [hwrite, ← Writer.append_assoc] at hbs
  obtain ⟨as, has, cs, hcs, rfl⟩ := Writer.encode_append_eq_ok_iff.mp hbs
  have hagree := agree_header hlt
    (h hlt ((Cursor.start (as ++ cs)).advance commonHeaderSize) cs hcs)
  refine ⟨(Cursor.start (as ++ cs)).advance (commonHeaderSize + n), ?_⟩
  unfold readSpan
  rw [hform, hread]
  exact hagree.run_eq has (Cursor.Faces.start _)

/-- An element is read back if, behind the header, its reader agrees with its writer. -/
theorem ReadsBack.of_agree_nil {e : ε} {v : Writer} [Writer.Uniform v]
    {f : UInt16 × UInt16 → Reader ε} {n : Nat}
    (hwrite : write e = writeHeader (code e) (length e) ++ v) (hform : SameForm ctx e)
    (hread : read ctx e = readHeader >>= f)
    (h : length e < 65536 → ∀ c, Agree v (f (code e, UInt16.ofNat (length e))) c n [] e) :
    ReadsBack ctx e := by
  rw [← Writer.append_skip v] at hwrite
  refine of_agree (n := n) hwrite hform hread fun hlt c tail htail => ?_
  have hnil : [] = tail := Except.ok.inj htail
  exact hnil ▸ h hlt c

/-! ## Unknown elements

An element of an unknown code keeps the length that it came with, and its body is cut or
filled to that length when it is written. -/

section Unknown

variable {length : UInt16} {headerSize : Nat} {body : Bytes}

theorem spans_unknown (length : UInt16) (headerSize : Nat) (body : Bytes) :
    Writer.Spans (Writer.fitted (length.toNat - headerSize) body)
      (max length.toNat headerSize - headerSize) := by
  refine Writer.Spans.of_size_eq (Writer.Spans.fitted _ body) ?_
  omega

/-- A body of the length that is declared is written as it is. -/
theorem encode_fitted (h : length.toNat = headerSize + body.length) :
    (Writer.fitted (length.toNat - headerSize) body).encode = .ok body := by
  rw [h, Nat.add_sub_cancel_left]
  exact Writer.encode_fitted_of_length_eq rfl

/-- The length that an element came with is that of its header and its body. -/
theorem ofNat_length (h : length.toNat = headerSize + body.length) :
    UInt16.ofNat (headerSize + body.length) = length := by
  rw [← h, UInt16.ofNat_toNat]

/-- An unknown element declares the length that it came with, if its body has it. -/
theorem declared_unknown (h : length.toNat = headerSize + body.length) :
    UInt16.ofNat (max length.toNat headerSize) = length := by
  rw [Nat.max_eq_left (h ▸ Nat.le_add_right _ _), UInt16.ofNat_toNat]

theorem agree_unknown {α : Type} {g : Bytes → α} (h : length.toNat = headerSize + body.length)
    (c : Cursor) :
    Agree (Writer.fitted (length.toNat - headerSize) body)
      (Reader.rest >>= fun bs => pure (g bs)) c (max length.toNat headerSize - headerSize) []
      (g body) := by
  have hbody : body.length = length.toNat - headerSize := by omega
  refine Agree.of_size_eq (Agree.map (Agree.rest_fitted hbody c)) ?_
  omega

end Unknown

/-! ## Lists -/

/-- **An element in front of a region is read back**, where one more is allowed, and reading goes on
behind its room. -/
theorem run_readMembers_append {e : ε} (h : ReadsBack ctx e) {bs : Bytes}
    (hbs : (write e).encode = .ok bs) (rest : Bytes) {allowance : Option Nat}
    (hmore : allowance ≠ some 0) (c : Cursor) :
    (readMembers ctx allowance (bs ++ rest) : Reader (List ε)).run c =
      (goOn (readMembers ctx (allowance.map (· - 1)) ((bs ++ rest).drop (occupied ε bs.length)))
        (.ok e)).run c := by
  obtain ⟨hlt, hlen, hpeek⟩ := of_encode_eq_ok hbs
  obtain ⟨c', hread⟩ := h bs hbs
  have hdeclared : (UInt16.ofNat (length e)).toNat = bs.length := by
    rw [UInt16.toNat_ofNat_of_lt' hlt, hlen]
  have hheader : headerSize ε ≤ (UInt16.ofNat (length e)).toNat := by
    rw [hdeclared, hlen]
    exact Lawful.headerSize_le_length e
  have hfits : (UInt16.ofNat (length e)).toNat ≤ (bs ++ rest).length := by
    rw [hdeclared, List.length_append]
    exact Nat.le_add_right _ _
  have hspan : readSpan ctx (code e) (UInt16.ofNat (length e))
      ((bs ++ rest).take (UInt16.ofNat (length e)).toNat) = ⟨.ok e, c', 0⟩ := by
    rw [hdeclared, List.take_left, hread]
  rw [run_readMembers_of_span (hpeek rest) hmore hheader hfits hspan, hdeclared]
  simp only [Nat.zero_add]

/-- The elements of a region that holds nothing else, where as many are allowed. -/
theorem run_readMembers_writeList {es : List ε} (h : ∀ e ∈ es, ReadsBack ctx e) {bs : Bytes}
    (hbs : (writeList es).encode = .ok bs) {allowance : Option Nat}
    (hallow : ∀ k, allowance = some k → es.length ≤ k) (c : Cursor) :
    (readMembers ctx allowance bs : Reader (List ε)).run c = ⟨.ok es, c, 0⟩ := by
  induction es generalizing bs allowance with
  | nil =>
    rw [← Except.ok.inj hbs]
    exact run_readMembers_of_length_lt (by decide)
  | cons e es ih =>
    obtain ⟨xs, hxs, ys, hys, rfl⟩ := Writer.encode_each_cons_eq_ok_iff.mp hbs
    obtain ⟨as, has, rfl⟩ := Writer.encode_padded_eq_ok_iff.mp hxs
    have hroom := Framed.le_occupied (ε := ε) as.length
    -- The room of the element in front ends where the others begin.
    have hdrop : (as ++ (Bytes.zeros (occupied ε as.length - as.length) ++ ys)).drop
        (occupied ε as.length) = ys := by
      rw [← List.append_assoc]
      apply List.drop_left'
      rw [List.length_append, Bytes.length_zeros]
      omega
    have hmore : allowance ≠ some 0 := fun hnone => absurd (hallow 0 hnone) (Nat.not_succ_le_zero _)
    have hallow' : ∀ k, allowance.map (· - 1) = some k → es.length ≤ k := by
      intro k hk
      obtain ⟨k', hk', rfl⟩ := Option.map_eq_some_iff.mp hk
      exact Nat.le_sub_one_of_lt (hallow k' hk')
    have hrest := ih (fun e' he' => h e' (List.mem_cons_of_mem e he')) hys hallow'
    rw [List.append_assoc, run_readMembers_append (h e (List.mem_cons_self ..)) has _ hmore, hdrop,
      run_goOn_ok, hrest]
    rfl

omit [Lawful ε] in
/-- A writer agrees with the reader of a list if it writes a region that is read as this list. -/
theorem agree_of_run_readMembers [Framed ε] {w : Writer} {es : List ε} {bs : Bytes}
    (hbs : w.encode = .ok bs)
    (h : ∀ c, (readMembers ctx ctx.elementLimit bs : Reader (List ε)).run c = ⟨.ok es, c, 0⟩)
    (c : Cursor) (tail : Bytes) : Agree w (readList ctx bs.length) c bs.length tail es := by
  refine ⟨bs, hbs, rfl, fun hc => ?_⟩
  have hregion : c.rest.take bs.length = bs := by
    rw [hc.rest_eq, List.take_left]
  rw [run_readList, hregion]
  simp only [h c]
  rw [Cursor.advanceWithin_eq_advance hc.pos_add_le]

/-- **A list of elements that are read back is read back**, from the bytes that it takes. -/
theorem agree_list {es : List ε} (hlimit : ctx.Allows es.length)
    (h : ∀ e ∈ es, ReadsBack ctx e) (hlen : ∀ e ∈ es, length e < 65536) (c : Cursor)
    (tail : Bytes) :
    Agree (writeList es) (readList ctx (listLength es)) c (listLength es) tail es := by
  obtain ⟨bs, hbs, hsize⟩ := spans_writeList hlen
  rw [← hsize]
  exact agree_of_run_readMembers hbs (run_readMembers_writeList h hbs hlimit) c tail

/-- The same for a list in what a 16-bit length leaves behind `k` other bytes. -/
theorem agree_list_left {k : Nat} {es : List ε} (hlimit : ctx.Allows es.length)
    (h : ∀ e ∈ es, ReadsBack ctx e) (hlt : k + listLength es < 65536) (c : Cursor)
    (tail : Bytes) :
    Agree (writeList es) (readList ctx ((UInt16.ofNat (k + listLength es)).toNat - k)) c
      (listLength es) tail es := by
  rw [UInt16.toNat_ofNat_of_lt' hlt, Nat.add_sub_cancel_left]
  exact agree_list hlimit h (length_lt_of_mem hlt) c tail

end Element
end OpenFlow
