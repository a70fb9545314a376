import OpenFlow.Wire.Filler

/-!
# What fillers leave behind

There are two things to know about a filler.  One is what comes of it where nothing of the memory
counts but what is there at the end of a reading that succeeds: this is a reader, and the equations
of `Filler.filled` compute it from the parts of the filler.  The other is what the memory may hold
in between, where a reading fails: `Filler.Keeps` says of a property that it holds there too.

Main definitions:

* `Filler.Keeps`: a filler leaves something with a given property, whatever comes of it.

Main statements:

* `Filler.filled_read_bind`, `Filler.filled_store_bind`, …: the reader that a filler makes.
* `Filler.Keeps.read_bind`, `Filler.Keeps.store_bind`, …: one rule for each part of a filler.
-/

namespace OpenFlow
namespace Filler

variable {σ τ α β : Type}

/-! ## The reader that a filler makes -/

@[simp]
theorem filled_read (r : Reader α) (m : σ) : (read r).filled m = r >>= fun _ => pure m := by
  funext c
  change Filler.filled (read r) m c = Reader.bind r (fun _ => Reader.pure m) c
  unfold filled read Reader.bind
  rcases r c with ⟨_ | _, _, _⟩ <;> rfl

@[simp]
theorem filled_read_bind (r : Reader α) (f : α → Filler σ β) (m : σ) :
    (read r >>= f).filled m = r >>= fun a => (f a).filled m := by
  funext c
  change Filler.filled (Filler.bind (read r) f) m c =
    Reader.bind r (fun a => (f a).filled m) c
  unfold filled Filler.bind read Reader.bind
  rcases r c with ⟨_ | a, c', w⟩
  · rfl
  · dsimp only
    rcases f a m c' with ⟨⟨_ | _, _, _⟩, _⟩ <;> rfl

@[simp]
theorem filled_modify (u : σ → σ) (m : σ) : (modify u).filled m = pure (u m) := rfl

@[simp]
theorem filled_modify_bind (u : σ → σ) (f : Unit → Filler σ β) (m : σ) :
    (modify u >>= f).filled m = (f ()).filled (u m) := by
  funext c
  change Filler.filled (Filler.bind (modify u) f) m c = Filler.filled (f ()) (u m) c
  unfold filled Filler.bind modify
  dsimp only
  rcases f () (u m) c with ⟨⟨_ | _, _, _⟩, _⟩ <;> simp

@[simp]
theorem filled_store (m' m : σ) : (store m').filled m = pure m' := rfl

@[simp]
theorem filled_store_bind (m' : σ) (f : Unit → Filler σ β) (m : σ) :
    (store m' >>= f).filled m = (f ()).filled m' :=
  filled_modify_bind _ f m

@[simp]
theorem filled_memory_bind (f : σ → Filler σ β) (m : σ) :
    (memory >>= f).filled m = (f m).filled m := by
  funext c
  change Filler.filled (Filler.bind memory f) m c = Filler.filled (f m) m c
  unfold filled Filler.bind memory
  dsimp only
  rcases f m m c with ⟨⟨_ | _, _, _⟩, _⟩ <;> simp

@[simp]
theorem filled_focus (part : τ) (whole : τ → σ) (f : Filler τ β) (m : σ) :
    (focus part whole f).filled m = whole <$> f.filled part := by
  funext c
  change Filler.filled (focus part whole f) m c =
    Reader.bind (f.filled part) (fun m => Reader.pure (whole m)) c
  unfold filled focus Reader.bind
  dsimp only
  rcases f part c with ⟨⟨_ | _, _, _⟩, _⟩ <;> rfl

/-! ## What holds of the memory all the time -/

/-- A filler leaves something with a property in some memory, also where it fails. -/
def Keeps (K : σ → Prop) (f : Filler σ α) (m : σ) : Prop := ∀ c, K (f.run m c).memory

namespace Keeps

variable {K : σ → Prop} {m m' : σ}

theorem read {r : Reader α} (h : K m) : Keeps K (Filler.read r) m := fun _ => h

theorem read_bind {r : Reader α} {f : α → Filler σ β} (h : K m) (hf : ∀ a, Keeps K (f a) m) :
    Keeps K (Filler.read r >>= f) m := by
  intro c
  change K (Filler.bind (Filler.read r) f m c).memory
  unfold Filler.bind Filler.read
  rcases r c with ⟨_ | a, c', _⟩
  · exact h
  · exact hf a c'

theorem modify_bind {u : σ → σ} {f : Unit → Filler σ β} (hf : Keeps K (f ()) (u m)) :
    Keeps K (Filler.modify u >>= f) m := fun c => hf c

theorem store (h : K m') : Keeps K (Filler.store m') m := fun _ => h

theorem store_bind {f : Unit → Filler σ β} (hf : Keeps K (f ()) m') :
    Keeps K (Filler.store m' >>= f) m := fun c => hf c

theorem memory_bind {f : σ → Filler σ β} (hf : Keeps K (f m) m) :
    Keeps K (Filler.memory >>= f) m := fun c => hf c

theorem focus {part : τ} {whole : τ → σ} {f : Filler τ β}
    (hf : Keeps (fun part => K (whole part)) f part) : Keeps K (Filler.focus part whole f) m :=
  fun c => hf c

end Keeps
end Filler
end OpenFlow
