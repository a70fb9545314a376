import OpenFlow.Wire.Reader

/-!
# Fillers

A filler reads the bytes at a cursor into memory that holds something already, a part at a time.
What it has written stays, also where it gives up later on.  The memory is the whole of a value, or
a part of one: `focus` fills a part in place.

Main definitions:

* `Filler`, with its monad structure: fillers run one after the other, on the same memory.
* `Filler.read`: run a reader and leave the memory as it is.
* `Filler.store`, `Filler.modify`: write into the memory.
* `Filler.focus`: fill a part of the memory.
* `Filler.filled`: a filler on some memory, as a reader of what the memory holds in the end.
-/

namespace OpenFlow

/-- What came of filling: the outcome of the reading, and what the memory holds then. -/
structure Filled (σ α : Type) where
  outcome : Outcome α
  memory : σ

/-- A way to read at a cursor into memory that holds a `σ`. -/
def Filler (σ α : Type) := σ → Cursor → Filled σ α

namespace Filler

variable {σ τ α β : Type}

/-- Run a filler on some memory, at a cursor. -/
def run (f : Filler σ α) (m : σ) (c : Cursor) : Filled σ α := f m c

/-- Read nothing, write nothing, and give a value. -/
protected def pure (a : α) : Filler σ α := fun m c => ⟨⟨.ok a, c, 0⟩, m⟩

/-- Run a filler, then the one its value chooses, on what the first one left in the memory. -/
protected def bind (f : Filler σ α) (g : α → Filler σ β) : Filler σ β := fun m c =>
  match f m c with
  | ⟨⟨.ok a, c', w⟩, m'⟩ =>
    match g a m' c' with
    | ⟨⟨b, c'', w'⟩, m''⟩ => ⟨⟨b, c'', w + w'⟩, m''⟩
  | ⟨⟨.error e, c', w⟩, m'⟩ => ⟨⟨.error e, c', w⟩, m'⟩

instance : Monad (Filler σ) where
  pure := Filler.pure
  bind := Filler.bind

/-- Run a reader. -/
def read (r : Reader α) : Filler σ α := fun m c => ⟨r c, m⟩

/-- What the memory holds. -/
def memory : Filler σ σ := fun m c => ⟨⟨.ok m, c, 0⟩, m⟩

/-- Overwrite what the memory holds. -/
def modify (u : σ → σ) : Filler σ Unit := fun m c => ⟨⟨.ok (), c, 0⟩, u m⟩

/-- Overwrite all of the memory. -/
def store (m : σ) : Filler σ Unit := modify fun _ => m

/-- Fill a part of the memory, which is put back into the whole. -/
def focus (part : τ) (whole : τ → σ) (f : Filler τ α) : Filler σ α := fun _ c =>
  match f part c with
  | ⟨o, part'⟩ => ⟨o, whole part'⟩

/-- Read what a filler leaves in the memory. -/
def filled (f : Filler σ α) (m : σ) : Reader σ := fun c =>
  match f m c with
  | ⟨⟨.ok _, c', w⟩, m'⟩ => ⟨.ok m', c', w⟩
  | ⟨⟨.error e, c', w⟩, _⟩ => ⟨.error e, c', w⟩

end Filler
end OpenFlow
