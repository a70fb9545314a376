import OpenFlow.Element.Registry
import OpenFlow.Oxm.Header

/-!
# Flow tables and their features

What a flow table can match on and do, as a list of properties.  A property of
instructions or actions lists element ids, which are elements with a header and,
as a rule, no body.  A property of match fields lists their headers.  Most
properties come in two codes, the odd one for the table-miss entry.
-/

namespace OpenFlow

/-- The name of a type of element. -/
structure ElementId where
  code : UInt16
  length : UInt16
  body : Bytes
  deriving DecidableEq, Repr

namespace ElementId

/-- The name of the family. -/
def family : String := "element id"

/-- The bare header of a type of element. -/
def ofCode (code : UInt16) : ElementId := ⟨code, 4, []⟩

end ElementId

/-- Whether actions are written to the action set or applied at once. -/
inductive ActionUse where
  | write
  | apply
  deriving DecidableEq, Repr

/-- What a table can do with a match field. -/
inductive FieldUse where
  | pattern
  | wildcards
  | writeSetField
  | applySetField
  deriving DecidableEq, Repr

/-- A property of a table.  `miss` marks the one for the table-miss entry. -/
inductive TableProperty where
  | instructions (miss : Bool) (ids : List ElementId)
  | nextTables (miss : Bool) (tables : Bytes)
  | actions (use : ActionUse) (miss : Bool) (ids : List ElementId)
  /-- The uses `pattern` and `wildcards` have no code for the table-miss entry. -/
  | fields (use : FieldUse) (miss : Bool) (headers : List OxmHeader)
  | unknown (code length : UInt16) (body : Bytes)
  deriving DecidableEq, Repr

namespace TableProperty

/-- The name of the family. -/
def family : String := "table feature property"

/-- What is added to a code for the table-miss entry. -/
def missOffset (miss : Bool) : UInt16 := if miss then 1 else 0

/-- The type code of a property. -/
def code : TableProperty → UInt16
  | instructions miss _ => 0 + missOffset miss
  | nextTables miss _ => 2 + missOffset miss
  | actions .write miss _ => 4 + missOffset miss
  | actions .apply miss _ => 6 + missOffset miss
  | fields .pattern _ _ => 8
  | fields .wildcards _ _ => 10
  | fields .writeSetField miss _ => 12 + missOffset miss
  | fields .applySetField miss _ => 14 + missOffset miss
  | unknown code _ _ => code

/-- A blank property of each known type. -/
def blanks : List TableProperty :=
  [instructions false [], instructions true [], nextTables false [], nextTables true [],
   actions .write false [], actions .write true [], actions .apply false [],
   actions .apply true [], fields .pattern false [], fields .wildcards false [],
   fields .writeSetField false [], fields .writeSetField true [],
   fields .applySetField false [], fields .applySetField true []]

/-- The registry of the known property types. -/
def types : Registry TableProperty := ⟨family, blanks.map fun p => (p.code, p)⟩

end TableProperty

/-- The features of a flow table. -/
structure TableFeatures where
  tableId : UInt8
  name : String
  metadataMatch : UInt64
  metadataWrite : UInt64
  config : UInt32
  maxEntries : UInt32
  properties : List TableProperty
  deriving DecidableEq, Repr

end OpenFlow
