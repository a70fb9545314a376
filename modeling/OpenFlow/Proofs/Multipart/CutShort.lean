import OpenFlow.Proofs.Multipart.RoundTrip
import OpenFlow.Proofs.Wire.Fitting

/-!
# Bodies that are cut short

Bodies follow each other without gaps, and the list may be cut anywhere: by a declared length that
ends inside of a body, or by a buffer that does.  What is left gives the bodies of which all bytes
are left, and the cursor ends up at the cut either way.

How far a body goes is looked up in bytes that may be behind the cut.  Where they are left, the
length is that of the whole body, which does not fit.  Where they are not, no length is found, and
this ends the list as well.  So a length that is there is never wrong, and what a shape does to find
it plays no part: it is enough that it finds the same in the bytes that are left as in all of them.

Main statements:

* `Body.span?_of_take`: what is judged of the bytes that are left holds of all of them.
* `Body.run_readMembers_of_encode`: as many bodies are read as fit.
* `Body.readList_cutShort`: the same for the bodies of each type and direction.
-/

namespace OpenFlow
namespace Body

variable {ctx : Context} {blank b : Body} {bs : Bytes} {left n : Nat}

/-! ## How far a body goes that is cut short -/

/-- A word at the front of the first bytes is at the front of all. -/
theorem peekUInt16?_of_take {word : UInt16} (h : Bytes.peekUInt16? (bs.take n) = some word) :
    Bytes.peekUInt16? bs = some word := by
  by_cases hn : 2 ≤ n
  · rwa [peekUInt16?_take bs hn] at h
  · exfalso
    obtain rfl | rfl : n = 0 ∨ n = 1 := by omega
    · rw [List.take_zero] at h
      cases h
    · rcases bs with _ | ⟨b₀, bs⟩ <;> cases h

/-- **A judgement of the bytes that are left holds of all bytes**, for a shape with an end of its
own. -/
theorem span?_of_take (hopen : ¬ blank.IsOpen) {k : Nat}
    (h : span? blank (bs.take n) left = some k) : span? blank bs left = some k := by
  cases blank with
  | flowStatsRequest _ | aggregateStatsRequest _ =>
    obtain ⟨length, hlength, rfl⟩ := Option.map_eq_some_iff.mp h
    rw [List.drop_take] at hlength
    exact Option.map_eq_some_iff.mpr ⟨length, peekUInt16?_of_take hlength, rfl⟩
  | flowStats _ | groupStats _ | meterConfig _ | tableFeatures _ =>
    obtain ⟨length, hlength, rfl⟩ := Option.map_eq_some_iff.mp h
    exact Option.map_eq_some_iff.mpr ⟨length, peekUInt16?_of_take hlength, rfl⟩
  | experimenter _ | unknown _ => exact absurd trivial hopen
  | _ => exact h

/-- A body that has a wire form does not have a length that is too much for 16 bits. -/
theorem size_lt_of_encode (hbs : b.write.encode = .ok bs) (hopens : b.OpensWithLength) :
    b.size < 65536 := by
  have hlength : (Bytes.peekUInt16? (bs ++ [])).map UInt16.toNat = some b.size := by
    cases b with
    | flowStats s => exact s.opensWith_write.peek hbs []
    | groupStats s => exact s.opensWith_write.peek hbs []
    | meterConfig m => exact m.opensWith_write.peek hbs []
    | tableFeatures t => exact t.opensWith_write.peek hbs []
    | _ => exact absurd hopens id
  obtain ⟨length, -, hsize⟩ := Option.map_eq_some_iff.mp hlength
  exact hsize ▸ length.toNat_lt

/-! ## Bodies of one shape -/

/-- Bodies of the shape of a blank one that have an end of their own, and bytes of their own. -/
structure Closed (blank b : Body) : Prop where
  sameShape : SameShape blank b
  wellFormed : b.WellFormed
  not_isOpen : ¬ blank.IsOpen
  ne_empty : blank ≠ empty

namespace Closed

variable (h : Closed blank b)

include h

theorem size_pos : 0 < b.size := by
  refine Body.size_pos h.wellFormed ?_
  rintro rfl
  cases h.sameShape
  exact h.ne_empty rfl

theorem span?_append (hbs : b.write.encode = .ok bs) (tail : Bytes) (left : Nat) :
    span? blank (bs ++ tail) left = some b.size := by
  rw [h.sameShape.span?_eq]
  refine span?_eq_some h.wellFormed hbs tail fun hopen => ?_
  exact absurd (h.sameShape.isOpen_iff.mpr hopen) h.not_isOpen

/-- What is left of a body is not read. -/
theorem next?_take_of_lt (hbs : b.write.encode = .ok bs) (hn : n < b.size) (left : Nat) :
    next? blank (bs.take n) left = none := by
  rw [Option.eq_none_iff_forall_ne_some]
  intro k hk
  obtain ⟨hspan, -, -, hle⟩ := next?_eq_some_iff.mp hk
  have hsize := h.span?_append hbs [] left
  rw [List.append_nil, span?_of_take h.not_isOpen hspan] at hsize
  rw [List.length_take, Option.some.inj hsize] at hle
  omega

/-- The body is read back from its wire form. -/
theorem agree_of_encode (hreg : ctx.registries = .standard) (hlimit : ctx.elementLimit = none)
    (hbs : b.write.encode = .ok bs) (c : Cursor) :
    Agree b.write (read ctx blank) c b.size [] b := by
  rw [h.sameShape.read_eq]
  exact agree hreg hlimit h.wellFormed (size_lt_of_encode hbs) c

end Closed

/-! ## Bodies in a row -/

variable {bodies : List Body}

theorem next?_nil (blank : Body) (left : Nat) : next? blank [] left = none := by
  rw [Option.eq_none_iff_forall_ne_some]
  intro k hk
  obtain ⟨-, hpos, -, hle⟩ := next?_eq_some_iff.mp hk
  exact Nat.not_le_of_lt hpos hle

/-- The list ends where no body is found. -/
theorem run_readMembers_of_next?_eq_none (h : next? blank bs left = none)
    (allowance : Option Nat) (c : Cursor) :
    (readMembers ctx blank allowance left bs).run c = ⟨.ok [], c, 0⟩ := by
  rw [readMembers_eq, h]
  split <;> rfl

/-- Bodies that have a wire form together take as many bytes as their sizes say. -/
theorem spans_of_encode (hreg : ctx.registries = .standard) (hlimit : ctx.elementLimit = none)
    (h : ∀ b ∈ bodies, Closed blank b) (hbs : (Writer.each write bodies).encode = .ok bs) :
    ∀ b ∈ bodies, Writer.Spans b.write b.size := by
  induction bodies generalizing bs with
  | nil => exact nofun
  | cons b bodies ih =>
    obtain ⟨xs, hxs, ys, hys, rfl⟩ := Writer.encode_each_cons_eq_ok_iff.mp hbs
    have hb := h b (List.mem_cons_self ..)
    exact List.forall_mem_cons.mpr
      ⟨(hb.agree_of_encode hreg hlimit hxs (Cursor.start [])).spans,
        ih (fun b' hb' => h b' (List.mem_cons_of_mem b hb')) hys⟩

/-- **As many bodies are read as fit** in the bytes that are left, if they may take all of these. -/
theorem run_readMembers_of_encode (hreg : ctx.registries = .standard)
    (hlimit : ctx.elementLimit = none) (h : ∀ b ∈ bodies, Closed blank b)
    (hbs : (Writer.each write bodies).encode = .ok bs) (hn : n ≤ left) (c : Cursor) :
    (readMembers ctx blank none left (bs.take n)).run c =
      ⟨.ok (bodies.take (fitting size n bodies)), c, 0⟩ := by
  induction bodies generalizing bs n left with
  | nil =>
    obtain rfl : [] = bs := Except.ok.inj hbs
    rw [List.take_nil, List.take_nil, run_readMembers_of_next?_eq_none (next?_nil blank left)]
  | cons b bodies ih =>
    obtain ⟨xs, hxs, ys, hys, rfl⟩ := Writer.encode_each_cons_eq_ok_iff.mp hbs
    have hb := h b (List.mem_cons_self ..)
    have hagree := hb.agree_of_encode hreg hlimit hxs (Cursor.start (xs ++ []))
    have hlen := hagree.spans.length_eq hxs
    by_cases hfits : b.size ≤ n
    · -- The body is in front of the cut, and behind it the cut is nearer by its size.
      have hcut : (xs ++ ys).take n = xs ++ ys.take (n - b.size) := by
        rw [List.take_append, List.take_of_length_le (hlen ▸ hfits), hlen]
      have hread := hagree.run_eq hxs (Cursor.Faces.start _)
      have htake : (xs ++ ys.take (n - b.size)).take b.size = xs ++ [] := by
        rw [List.take_left' hlen, List.append_nil]
      have hwhole : b.size ≤ (xs ++ ys.take (n - b.size)).length := by
        rw [List.length_append, hlen]
        exact Nat.le_add_right _ _
      have hrest := ih (fun b' hb' => h b' (List.mem_cons_of_mem b hb')) hys
        (Nat.sub_le_sub_right hn b.size)
      rw [← htake] at hread
      rw [hcut, take_fitting_cons_of_le hfits]
      refine run_readMembers_of_span (hb.span?_append hxs _ left) hb.size_pos
        (Nat.le_trans hfits hn) hwhole hread ?_
      rw [List.drop_left' hlen]
      exact hrest
    · have hlt : n < b.size := Nat.lt_of_not_le hfits
      rw [List.take_append_of_le_length (hlen ▸ Nat.le_of_lt hlt), take_fitting_cons_of_lt hlt,
        run_readMembers_of_next?_eq_none (hb.next?_take_of_lt hxs hlt left)]

/-! ## The list -/

/-- A list is read from what its region holds of the bodies. -/
theorem run_readList_of_take (hreg : ctx.registries = .standard) (hlimit : ctx.elementLimit = none)
    {direction : Direction} (hdirection : ctx.direction = some direction) {code : UInt16}
    (h : ∀ b ∈ bodies, Closed (Body.blank ctx direction code) b)
    (hbs : (Writer.each write bodies).encode = .ok bs) {m : Nat} (hm : n ≤ m) {buf : Bytes}
    {start : Nat} (hregion : (buf.drop start).take m = bs.take n) :
    (readList ctx code m).run (Cursor.at buf start) =
      ⟨.ok (bodies.take (fitting size n bodies)), Cursor.at buf (min (start + m) buf.length),
        0⟩ := by
  rw [run_readList_at hdirection code m buf start (Cursor.start []), hlimit, hregion]
  simp only [run_readMembers_of_encode hreg hlimit h hbs hm]

/-- **Bodies that are cut short are read as the whole ones among them**, for each type and direction
whose bodies have bytes and an end of their own.  These are as many bodies as fit in front of the
cut.  The cut may be the declared length, inside of a longer buffer, or the end of the buffer,
inside of the declared length.  The cursor ends up at the cut. -/
theorem readList_cutShort (ctx : Context) (hreg : ctx.registries = .standard)
    (hlimit : ctx.elementLimit = none) {direction : Direction}
    (hdirection : ctx.direction = some direction) (code : UInt16) {blank : Body}
    (hblank : (Registries.standard.multipart direction).lookup? code = some blank)
    (hne : blank ≠ empty) (hopen : ¬ blank.IsOpen) (bodies : List Body)
    (hbodies : ∀ b ∈ bodies, SameShape blank b ∧ b.WellFormed) (b : Bytes)
    (hb : (Writer.each write bodies).encode = .ok b) (n : Nat) (hn : n ≤ b.length) (p : Bytes) :
    ∃ k ≤ bodies.length,
      (∀ j ≤ bodies.length, ∃ bs, (Writer.each write (bodies.take j)).encode = .ok bs ∧
        (j ≤ k ↔ bs.length ≤ n)) ∧
      (∀ s : Bytes, (readList ctx code n).run (Cursor.at (p ++ b ++ s) p.length) =
        ⟨.ok (bodies.take k), Cursor.at (p ++ b ++ s) (p.length + n), 0⟩) ∧
      ∀ m, n ≤ m → (readList ctx code m).run (Cursor.at (p ++ b.take n) p.length) =
        ⟨.ok (bodies.take k), Cursor.at (p ++ b.take n) (p.length + n), 0⟩ := by
  have hfound : Body.blank ctx direction code = blank := by
    unfold Body.blank
    rw [hreg, hblank, Option.getD_some]
  subst hfound
  have hclosed : ∀ b ∈ bodies, Closed (Body.blank ctx direction code) b := fun b hb =>
    ⟨(hbodies b hb).1, (hbodies b hb).2, hopen, hne⟩
  have hspans := spans_of_encode hreg hlimit hclosed hb
  refine ⟨fitting size n bodies, fitting_le_length _ _ _, fun j hj => ?_, fun s => ?_,
    fun m hm => ?_⟩
  · obtain ⟨bs, hbs, hlen⟩ := Writer.Spans.each fun b hb => hspans b (List.mem_of_mem_take hb)
    exact ⟨bs, hbs, hlen ▸ le_fitting_iff hj⟩
  · have hregion : ((p ++ b ++ s).drop p.length).take n = b.take n := by
      rw [List.append_assoc, List.drop_left, List.take_append_of_le_length hn]
    have hend : min (p.length + n) (p ++ b ++ s).length = p.length + n := by
      simp only [List.length_append]
      omega
    rw [run_readList_of_take hreg hlimit hdirection hclosed hb (Nat.le_refl n) hregion, hend]
  · have hregion : ((p ++ b.take n).drop p.length).take m = b.take n := by
      rw [List.drop_left, List.take_take, Nat.min_eq_right hm]
    have hend : min (p.length + m) (p ++ b.take n).length = p.length + n := by
      rw [List.length_append, List.length_take_of_le hn]
      omega
    rw [run_readList_of_take hreg hlimit hdirection hclosed hb hm hregion, hend]

/-- Two meters without bands. -/
def twoMeters : List Body := [.meterConfig ⟨0, 1, []⟩, .meterConfig ⟨0, 2, []⟩]

/-- The bytes of both meters, cut behind the first byte of the length of the second one. -/
theorem readList_cutShort_twoMeters :
    let ctx : Context := { direction := some .reply }
    let bytes : Bytes := [9] ++ [0, 8, 0, 0, 0, 0, 0, 1, 0, 8, 0, 0, 0, 0, 0, 2] ++ [9]
    (readList ctx 10 9).run (Cursor.at bytes 1) =
      ⟨.ok [.meterConfig ⟨0, 1, []⟩], Cursor.at bytes 10, 0⟩ ∧
    (readList ctx 10 16).run (Cursor.at ([9] ++ [0, 8, 0, 0, 0, 0, 0, 1, 0]) 1) =
      ⟨.ok [.meterConfig ⟨0, 1, []⟩], Cursor.at ([9] ++ [0, 8, 0, 0, 0, 0, 0, 1, 0]) 10, 0⟩ := by
  intro ctx bytes
  have hbodies : ∀ b ∈ twoMeters, SameShape (.meterConfig ⟨0, 0, []⟩) b ∧ b.WellFormed :=
    List.forall_mem_cons.mpr ⟨⟨.meterConfig, nofun⟩,
      List.forall_mem_singleton.mpr ⟨.meterConfig, nofun⟩⟩
  obtain ⟨k, hk, hwhole, hregion, hbuffer⟩ :=
    readList_cutShort ctx rfl rfl rfl 10 rfl nofun id twoMeters hbodies _ rfl 9 (by decide) [9]
  -- The first meter ends at byte 8, and the second one at byte 16.
  have hfirst : 1 ≤ k := by
    obtain ⟨bs, hbs, hiff⟩ := hwhole 1 (by decide)
    obtain rfl : [0, 8, 0, 0, 0, 0, 0, 1] = bs := Except.ok.inj hbs
    exact hiff.mpr (by decide)
  have hsecond : ¬ 2 ≤ k := by
    obtain ⟨bs, hbs, hiff⟩ := hwhole 2 (by decide)
    obtain rfl : [0, 8, 0, 0, 0, 0, 0, 1, 0, 8, 0, 0, 0, 0, 0, 2] = bs := Except.ok.inj hbs
    exact fun h => absurd (hiff.mp h) (by decide)
  obtain rfl : k = 1 := by omega
  exact ⟨hregion [9], hbuffer 16 (by decide)⟩

end Body
end OpenFlow
