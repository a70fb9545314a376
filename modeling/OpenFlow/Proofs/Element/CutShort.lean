import OpenFlow.Proofs.Element.Decoded
import OpenFlow.Proofs.Element.Framing
import OpenFlow.Proofs.Element.RoundTrip

/-!
# Lists that are cut short

The wire form of a list may be cut anywhere: inside of a header, inside of a body or of a list in
it, or in the zeros behind an element.  Reading what is left gives the elements of which all bytes
are left, and no part of any other.  An element is taken as a whole or not at all, since
its header says how far it goes; so a cut inside of a nested list takes the element around it.
The zeros behind the last element need not be there.

It does not matter whether the bytes are missing, or are there and lie outside of the region.
Either way the cursor ends up at the cut.

Main definition:

* `Element.wholeIn`: how many elements have all their bytes in front of the cut.

Main statements:

* `Element.lt_wholeIn_iff`: an element is among them if it ends in front of the cut.
* `Element.run_readMembers_take`: these are the elements that are read.
* `Element.readList_take`: the same for lists of well-formed elements, in every family.
-/

namespace OpenFlow
namespace Element

variable {ε : Type} [Element ε]

/-! ## The elements in front of a cut -/

/-- How many elements have all their bytes among the first `n` of the room that the list takes. -/
def wholeIn (n : Nat) : List ε → Nat
  | [] => 0
  | e :: es => if length e ≤ n then wholeIn (n - occupied ε (length e)) es + 1 else 0

theorem wholeIn_le_length (n : Nat) (es : List ε) : wholeIn n es ≤ es.length := by
  induction es generalizing n with
  | nil => exact Nat.le_refl 0
  | cons e es ih =>
    rw [wholeIn, List.length_cons]
    split
    · exact Nat.succ_le_succ (ih _)
    · exact Nat.zero_le _

variable [Lawful ε]

/-- No element is empty. -/
theorem length_pos (e : ε) : 0 < length e := by
  have hcommon := Framed.commonHeaderSize_le (ε := ε)
  have hheader := Lawful.headerSize_le_length e
  unfold commonHeaderSize at hcommon
  omega

/-- **An element has all its bytes in front of a cut** if it ends there or before: where it
starts, behind the room that the others in front of it take, and as long as it declares. -/
theorem lt_wholeIn_iff {n i : Nat} {es : List ε} {e : ε} (h : es[i]? = some e) :
    i < wholeIn n es ↔ listLength (es.take i) + length e ≤ n := by
  induction es generalizing n i with
  | nil => exact absurd h (by simp)
  | cons e' es ih =>
    have hpos := length_pos e
    have hroom := Framed.le_occupied (ε := ε) (length e')
    cases i with
    | zero =>
      obtain rfl : e' = e := Option.some.inj h
      rw [wholeIn, List.take_zero, show listLength ([] : List ε) = 0 from rfl, Nat.zero_add]
      split <;> omega
    | succ i =>
      have hstart : listLength ((e' :: es).take (i + 1)) =
          occupied ε (length e') + listLength (es.take i) := rfl
      have hrest := ih (n := n - occupied ε (length e')) h
      rw [wholeIn, hstart]
      split <;> omega

/-! ## Reading them -/

variable {ctx : Context}

/-- What is left of an element is not read. -/
theorem run_readMembers_take_of_lt {e : ε} {bs : Bytes} (hbs : (write e).encode = .ok bs) {n : Nat}
    (hn : n < bs.length) (c : Cursor) :
    (readMembers ctx none (bs.take n) : Reader (List ε)).run c = ⟨.ok [], c, 0⟩ := by
  obtain ⟨hlt, hlen, hpeek⟩ := of_encode_eq_ok hbs
  have htake : (bs.take n).length = n := List.length_take_of_le (Nat.le_of_lt hn)
  by_cases hfour : n < commonHeaderSize
  · exact run_readMembers_of_length_lt (htake.symm ▸ hfour)
  · have hfront := hpeek []
    rw [List.append_nil] at hfront
    have hdeclared : (UInt16.ofNat (length e)).toNat = bs.length := by
      rw [UInt16.toNat_ofNat_of_lt' hlt, hlen]
    refine run_readMembers_of_overrun (peekHeader?_take (Nat.le_of_not_lt hfour) hfront)
      (Option.some_ne_none 0).symm ?_ ?_
    · rw [hdeclared, hlen]
      exact Lawful.headerSize_le_length e
    · rw [hdeclared, htake]
      exact hn

/-- **The elements of a region that is cut short**: those of which all bytes are left. -/
theorem run_readMembers_take {es : List ε} (h : ∀ e ∈ es, ReadsBack ctx e) {bs : Bytes}
    (hbs : (writeList es).encode = .ok bs) (n : Nat) (c : Cursor) :
    (readMembers ctx none (bs.take n) : Reader (List ε)).run c =
      ⟨.ok (es.take (wholeIn n es)), c, 0⟩ := by
  induction es generalizing bs n with
  | nil =>
    rw [← Except.ok.inj hbs]
    exact run_readMembers_of_length_lt (by simp)
  | cons e es ih =>
    obtain ⟨xs, hxs, ys, hys, rfl⟩ := Writer.encode_each_cons_eq_ok_iff.mp hbs
    obtain ⟨as, has, rfl⟩ := Writer.encode_padded_eq_ok_iff.mp hxs
    obtain ⟨-, hlen, -⟩ := of_encode_eq_ok has
    have hroom := Framed.le_occupied (ε := ε) as.length
    by_cases hn : as.length ≤ n
    · -- Behind the room of the element in front the others begin, and the cut is nearer.
      have hsplit : (as ++ Bytes.zeros (occupied ε as.length - as.length) ++ ys).take n =
          as ++ (Bytes.zeros (occupied ε as.length - as.length) ++ ys).take (n - as.length) := by
        rw [List.append_assoc, List.take_append, List.take_of_length_le hn]
      have hdrop : ((as ++ Bytes.zeros (occupied ε as.length - as.length) ++ ys).take n).drop
          (occupied ε as.length) = ys.take (n - occupied ε as.length) := by
        rw [List.drop_take]
        congr 1
        apply List.drop_left'
        rw [List.length_append, Bytes.length_zeros]
        omega
      have hrest := ih (fun e' he' => h e' (List.mem_cons_of_mem e he')) hys
        (n - occupied ε as.length)
      rw [hsplit, run_readMembers_append (h e (List.mem_cons_self ..)) has _
        (Option.some_ne_none 0).symm, ← hsplit, hdrop, run_goOn_ok, Option.map_none, hrest, wholeIn,
        if_pos (hlen ▸ hn), ← hlen, List.take_succ_cons]
      rfl
    · have hcut : (as ++ Bytes.zeros (occupied ε as.length - as.length) ++ ys).take n =
          as.take n := by
        rw [List.append_assoc, List.take_append_of_le_length (Nat.le_of_not_le hn)]
      rw [hcut, run_readMembers_take_of_lt has (Nat.lt_of_not_le hn), wholeIn,
        if_neg (hlen ▸ hn), List.take_zero]

/-- A list is read from the region that its bytes leave. -/
theorem run_readList_of_take {es : List ε} (hlimit : ctx.elementLimit = none)
    (h : ∀ e ∈ es, ReadsBack ctx e) {bs : Bytes} (hbs : (writeList es).encode = .ok bs) {n m : Nat}
    {c : Cursor} (hregion : c.rest.take m = bs.take n) :
    (readList ctx m : Reader (List ε)).run c =
      ⟨.ok (es.take (wholeIn n es)), c.advanceWithin m, 0⟩ := by
  rw [run_readList, hlimit, hregion, run_readMembers_take h hbs n c]

/-- **A list that is cut short is read as its leading elements**, in every family: those that end
in front of the cut.  The cut may be the end of the region, inside of a longer buffer, or the end of
the buffer, inside of the region.  The cursor ends up at the cut. -/
theorem readList_take (ctx : Context) (hreg : ctx.registries = .standard)
    (hlimit : ctx.elementLimit = none) (F : Family) (es : List F.Member)
    (hes : ∀ e ∈ es, F.WellFormed e) (b : Bytes) (hb : (writeList es).encode = .ok b) (n : Nat)
    (hn : n ≤ b.length) (p : Bytes) :
    ∃ k ≤ es.length,
      (∀ i e, es[i]? = some e → (i < k ↔ listLength (es.take i) + length e ≤ n)) ∧
      (∀ s : Bytes,
        (readList ctx n : Reader (List F.Member)).run (Cursor.at (p ++ b ++ s) p.length) =
          ⟨.ok (es.take k), Cursor.at (p ++ b ++ s) (p.length + n), 0⟩) ∧
      ∀ m, n ≤ m →
        (readList ctx m : Reader (List F.Member)).run (Cursor.at (p ++ b.take n) p.length) =
          ⟨.ok (es.take k), Cursor.at (p ++ b.take n) (p.length + n), 0⟩ := by
  have hback : ∀ e ∈ es, ReadsBack ctx e := fun e he => F.readsBack hreg hlimit (hes e he)
  refine ⟨wholeIn n es, wholeIn_le_length n es, fun i e he => lt_wholeIn_iff he, fun s => ?_,
    fun m hm => ?_⟩
  · have hregion : (Cursor.at (p ++ b ++ s) p.length).rest.take n = b.take n := by
      rw [Cursor.rest_at, List.append_assoc, List.drop_left, List.take_append_of_le_length hn]
    have hend : min (p.length + n) (p ++ b ++ s).length = p.length + n := by
      simp only [List.length_append]
      omega
    rw [run_readList_of_take hlimit hback hb hregion, advanceWithin_at, hend]
  · have hregion : (Cursor.at (p ++ b.take n) p.length).rest.take m = b.take n := by
      rw [Cursor.rest_at, List.drop_left, List.take_take, Nat.min_eq_right hm]
    have hend : min (p.length + m) (p ++ b.take n).length = p.length + n := by
      rw [List.length_append, List.length_take_of_le hn]
      omega
    rw [run_readList_of_take hlimit hback hb hregion, advanceWithin_at, hend]

/-- An element of an unknown code, whose five bytes are filled up to eight, and a version bitmap. -/
def unfilledHello : List HelloElement := [.unknown 9 5 [1], .versionBitmap [0x12]]

/-- The bytes of both elements, cut behind the first of the three zeros between them. -/
theorem readList_take_unfilledHello :
    (readList {} 6 : Reader (List HelloElement)).run
        (Cursor.at ([9] ++ [0, 9, 0, 5, 1, 0, 0, 0, 0, 1, 0, 8, 0, 0, 0, 0x12] ++ [9]) 1) =
      ⟨.ok [.unknown 9 5 [1]],
        Cursor.at ([9] ++ [0, 9, 0, 5, 1, 0, 0, 0, 0, 1, 0, 8, 0, 0, 0, 0x12] ++ [9]) 7, 0⟩ ∧
    (readList {} 16 : Reader (List HelloElement)).run
        (Cursor.at ([9] ++ [0, 9, 0, 5, 1, 0]) 1) =
      ⟨.ok [.unknown 9 5 [1]], Cursor.at ([9] ++ [0, 9, 0, 5, 1, 0]) 7, 0⟩ := by
  have hes : ∀ e ∈ unfilledHello, e.WellFormed := by
    intro e he
    rcases List.mem_cons.mp he with rfl | he
    · exact ⟨rfl, rfl⟩
    · obtain rfl := List.mem_singleton.mp he
      trivial
  obtain ⟨k, hk, hwhole, hregion, hbuffer⟩ :=
    readList_take {} rfl rfl .helloElement unfilledHello hes _ rfl 6 (by decide) [9]
  -- The first element ends at byte 5, and the second one at byte 16.
  have hfirst : 0 < k := (hwhole 0 _ rfl).mpr (by decide)
  have hsecond : ¬ 1 < k := fun h => absurd ((hwhole 1 _ rfl).mp h) (by decide)
  obtain rfl : k = 1 := by omega
  exact ⟨hregion [9], hbuffer 16 (by decide)⟩

end Element
end OpenFlow
