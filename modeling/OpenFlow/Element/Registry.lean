import OpenFlow.Error

/-!
# Registries of element types

A registry maps the type codes of one family to blank elements: the element a
code stands for before its body is read.  Registering a code again replaces its
blank.

* `Registry.lookup?_register`, `Registry.lookup?_unregister`: what a registry
  holds after a change.
-/

namespace OpenFlow

/-- The type codes of a family that are known, with a blank element for each. -/
structure Registry (ε : Type) where
  /-- The name of the family, for error texts. -/
  family : String
  /-- The known codes, the latest registered first. -/
  entries : List (UInt16 × ε)

namespace Registry

variable {ε : Type}

/-- The registry of a family that knows no code. -/
def empty (family : String) : Registry ε := ⟨family, []⟩

/-- The blank of a code, if the code is known. -/
def lookup? (r : Registry ε) (code : UInt16) : Option ε :=
  (r.entries.find? (·.1 == code)).map (·.2)

/-- Forget a code. -/
def unregister (r : Registry ε) (code : UInt16) : Registry ε :=
  { r with entries := r.entries.filter (·.1 != code) }

/-- Make a code stand for a blank. -/
def register (r : Registry ε) (code : UInt16) (blank : ε) : Registry ε :=
  { r with entries := (code, blank) :: (r.unregister code).entries }

/-- Whether a code is known. -/
def contains (r : Registry ε) (code : UInt16) : Bool := (r.lookup? code).isSome

/-- The number of known codes. -/
def size (r : Registry ε) : Nat := r.entries.length

/-- The blank of a code, which has to be known. -/
def instantiate (r : Registry ε) (code : UInt16) : Except Error ε :=
  match r.lookup? code with
  | some blank => .ok blank
  | none => .error (.unknownElementType r.family code)

theorem lookup?_unregister (r : Registry ε) (code code' : UInt16) :
    (r.unregister code).lookup? code' = if code = code' then none else r.lookup? code' := by
  unfold unregister lookup?
  rw [List.find?_filter]
  by_cases h : code = code'
  · subst h
    simp
  · have hsame : ∀ a : UInt16 × ε,
        decide ((a.1 != code) = true ∧ (a.1 == code') = true) = (a.1 == code') := by
      intro a
      by_cases ha : a.1 = code'
      · have : a.1 ≠ code := fun hc => h (hc ▸ ha)
        simp [ha ▸ this, ha]
      · simp [ha]
    simp only [hsame, if_neg h]

theorem lookup?_register (r : Registry ε) (code code' : UInt16) (blank : ε) :
    (r.register code blank).lookup? code' =
      if code = code' then some blank else r.lookup? code' := by
  by_cases h : code = code'
  · simp [register, lookup?, h]
  · have hfront : (code == code') = false := by simpa using h
    have hrest := lookup?_unregister r code code'
    simp only [lookup?] at hrest
    simp only [register, lookup?, List.find?_cons, hfront, if_neg h]
    simpa [h] using hrest

end Registry
end OpenFlow
