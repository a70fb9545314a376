import OpenFlow.Error
import OpenFlow.Wire.Cursor

/-!
# Readers

A reader turns the bytes at a cursor into a value.  Its outcome records three
things: the value or the error, the cursor it stopped at, and how many warnings
it raised on the way.  An error keeps the cursor and the warnings of what was
read before it.

Main definitions:

* `Reader`, with its monad structure: readers run one after the other.
* `Reader.bytes`, `Reader.u8`, …, `Reader.u64`, `Reader.skip`, `Reader.rest`: the
  primitive readers.
* `Reader.within span r`: run `r` on a buffer of its own, from its start.
* `Reader.attempt r`: run `r` and give back its error as a value, with the cursor
  where `r` stopped.
-/

namespace OpenFlow

/-- What came of reading. -/
structure Outcome (α : Type) where
  /-- The value, or why there is none. -/
  result : Except Error α
  /-- Where reading stopped. -/
  cursor : Cursor
  /-- How many warnings were raised. -/
  warnings : Nat

/-- A way to read a value at a cursor. -/
def Reader (α : Type) := Cursor → Outcome α

namespace Reader

variable {α β : Type}

/-- Run a reader at a cursor. -/
def run (r : Reader α) (c : Cursor) : Outcome α := r c

/-- Read nothing and give a value. -/
protected def pure (a : α) : Reader α := fun c => ⟨.ok a, c, 0⟩

/-- Run a reader, then the one its value chooses. -/
protected def bind (r : Reader α) (f : α → Reader β) : Reader β := fun c =>
  match r c with
  | ⟨.ok a, c', w⟩ =>
    match f a c' with
    | ⟨b, c'', w'⟩ => ⟨b, c'', w + w'⟩
  | ⟨.error e, c', w⟩ => ⟨.error e, c', w⟩

instance : Monad Reader where
  pure := Reader.pure
  bind := Reader.bind

theorem id_map_reader (r : Reader α) : id <$> r = r := by
  funext c
  change Reader.bind r (fun a => Reader.pure (id a)) c = r c
  unfold Reader.bind Reader.pure
  rcases r c with ⟨_ | _, _, _⟩ <;> simp

theorem pure_bind_reader (a : α) (f : α → Reader β) : pure a >>= f = f a := by
  funext c
  change Reader.bind (Reader.pure a) f c = f a c
  simp [Reader.bind, Reader.pure]

theorem bind_assoc_reader {γ : Type} (r : Reader α) (f : α → Reader β) (g : β → Reader γ) :
    r >>= f >>= g = r >>= fun a => f a >>= g := by
  funext c
  change Reader.bind (Reader.bind r f) g c = Reader.bind r (fun a => Reader.bind (f a) g) c
  unfold Reader.bind
  rcases r c with ⟨_ | a, c', w⟩
  · rfl
  · dsimp only
    rcases f a c' with ⟨_ | b, c'', w'⟩
    · rfl
    · simp [Nat.add_assoc]

instance : LawfulMonad Reader :=
  LawfulMonad.mk' Reader id_map_reader pure_bind_reader bind_assoc_reader

/-- Give up with an error. -/
def fail (e : Error) : Reader α := fun c => ⟨.error e, c, 0⟩

/-- The value of a computation that reads nothing. -/
def lift (x : Except Error α) : Reader α := fun c => ⟨x, c, 0⟩

/-- Raise a warning. -/
def warn : Reader Unit := fun c => ⟨.ok (), c, 1⟩

/-- The cursor reached so far. -/
def cursor : Reader Cursor := fun c => ⟨.ok c, c, 0⟩

/-- Go on from another cursor. -/
def moveTo (c : Cursor) : Reader Unit := fun _ => ⟨.ok (), c, 0⟩

/-- Go `n` bytes on without looking at them. -/
def pass (n : Nat) : Reader Unit := fun c => ⟨.ok (), c.advance n, 0⟩

/-- Run a reader on a buffer of its own.  The cursor outside does not move. -/
def within (span : Bytes) (r : Reader α) : Reader α := fun c =>
  match r (Cursor.start span) with
  | ⟨a, _, w⟩ => ⟨a, c, w⟩

/-- Run a reader; where it fails, give the error as a value. -/
def attempt (r : Reader α) : Reader (Except Error α) := fun c =>
  match r c with
  | ⟨.ok a, c', w⟩ => ⟨.ok (.ok a), c', w⟩
  | ⟨.error e, c', w⟩ => ⟨.ok (.error e), c', w⟩

/-- The next `n` bytes, known to be that many. -/
def exactly (n : Nat) : Reader { bs : Bytes // bs.length = n } := fun c =>
  if h : n ≤ c.remaining then
    ⟨.ok ⟨c.rest.take n, Cursor.length_take_rest h⟩, c.advance n, 0⟩
  else ⟨.error (.truncatedInput .bytes), c, 0⟩

/-- The next `n` bytes. -/
def bytes (n : Nat) : Reader Bytes := do
  return (← exactly n).val

/-- Pass over `n` padding bytes, whatever they hold. -/
def skip (n : Nat) : Reader Unit := fun c =>
  if c.pos + n ≤ c.size then ⟨.ok (), c.advance n, 0⟩
  else ⟨.error (.truncatedInput (.padding n c.pos)), c, 0⟩

/-- The next byte. -/
def u8 : Reader UInt8 := do
  return UInt8.ofNat (Bytes.value (← bytes 1))

/-- The next 16-bit word. -/
def u16 : Reader UInt16 := do
  return UInt16.ofNat (Bytes.value (← bytes 2))

/-- The next 32-bit word. -/
def u32 : Reader UInt32 := do
  return UInt32.ofNat (Bytes.value (← bytes 4))

/-- The next 64-bit word. -/
def u64 : Reader UInt64 := do
  return UInt64.ofNat (Bytes.value (← bytes 8))

/-- All bytes up to the end of the buffer. -/
def rest : Reader Bytes := fun c => ⟨.ok c.rest, c.advance c.remaining, 0⟩

/-- `n` values, one after the other. -/
def times (r : Reader α) : Nat → Reader (List α)
  | 0 => return []
  | n + 1 => do
    let a ← r
    return a :: (← times r n)

/-! ## Equations -/

theorem run_exactly_of_le {n : Nat} {c : Cursor} (h : n ≤ c.remaining) :
    (exactly n).run c =
      ⟨.ok ⟨c.rest.take n, Cursor.length_take_rest h⟩, c.advance n, 0⟩ :=
  dif_pos h

theorem run_exactly_of_lt {n : Nat} {c : Cursor} (h : c.remaining < n) :
    (exactly n).run c = ⟨.error (.truncatedInput .bytes), c, 0⟩ :=
  dif_neg (Nat.not_le.mpr h)

theorem run_pure (a : α) (c : Cursor) : (pure a : Reader α).run c = ⟨.ok a, c, 0⟩ := rfl

theorem run_bind_of_ok {r : Reader α} {f : α → Reader β} {c c' : Cursor} {a : α} {w : Nat}
    (h : r.run c = ⟨.ok a, c', w⟩) :
    (r >>= f).run c =
      ⟨((f a).run c').result, ((f a).run c').cursor, w + ((f a).run c').warnings⟩ := by
  change Reader.bind r f c = _
  unfold Reader.bind
  rw [show r c = _ from h]
  rfl

/-- Looking where the cursor stands changes nothing. -/
theorem run_cursor_bind (f : Cursor → Reader α) (c : Cursor) :
    (cursor >>= f).run c = (f c).run c := by
  have hcursor : cursor.run c = ⟨.ok c, c, 0⟩ := rfl
  rw [run_bind_of_ok hcursor, Nat.zero_add]

theorem run_pass_bind (n : Nat) (f : Unit → Reader α) (c : Cursor) :
    (pass n >>= f).run c = (f ()).run (c.advance n) := by
  have hpass : (pass n).run c = ⟨.ok (), c.advance n, 0⟩ := rfl
  rw [run_bind_of_ok hpass, Nat.zero_add]

theorem run_bind_of_error {r : Reader α} {f : α → Reader β} {c c' : Cursor} {e : Error} {w : Nat}
    (h : r.run c = ⟨.error e, c', w⟩) : (r >>= f).run c = ⟨.error e, c', w⟩ := by
  change Reader.bind r f c = _
  unfold Reader.bind
  rw [show r c = _ from h]

end Reader
end OpenFlow
