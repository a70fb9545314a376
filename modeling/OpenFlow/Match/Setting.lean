import OpenFlow.Match.Basic

/-!
# Calls that set fields

A call changes a match in place and may fail.  It builds its field first, from the value and the
mask it is given, and then sets it.

* `Match.setBuilt`: build a field and set it.
* `Setting`, `Setting.perform`: a call, and how it is made.
* `Match.after`: the match that a call leaves.
-/

namespace OpenFlow

/-- Set a field in place, if it can be built. -/
def Match.setBuilt (built : Except Error OxmField) : EStateM Error Match Unit := do
  let f ← MonadExcept.ofExcept built
  modify fun m => m.set f

/-- A call that sets a field: one that is there already, or one of a basic type that is built of
its value, or of its value and its mask. -/
inductive Setting where
  | whole (f : OxmField)
  | exact (t : FieldType) (value : OxmValue)
  | masked (t : FieldType) (value mask : OxmValue)

namespace Setting

/-- Make a call. -/
def perform : Setting → EStateM Error Match Unit
  | whole f => modify fun m => m.set f
  | exact t value => Match.setBuilt (OxmField.exact t.descriptor value)
  | masked t value mask => Match.setBuilt (OxmField.masked t.descriptor value mask)

end Setting

/-- The match after a call, whether this has failed or not. -/
def Match.after (m : Match) (call : Setting) : Match :=
  match call.perform.run m with
  | .ok _ m' => m'
  | .error _ m' => m'

end OpenFlow
