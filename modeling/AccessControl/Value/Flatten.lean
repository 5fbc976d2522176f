import AccessControl.Value.Basic

/-!
# Records as maps

A record that leaves the library, in a log line or in a response, is written as a map from field
names to values, and so are the records inside its fields.  Records of fields with no declared
type, and option records, stay as they are.
-/

namespace AccessControl

/-- The fields of the shape are declared once and for all. -/
def Shape.isDeclared : Shape → Bool
  | .loose | .rootOptions | .featureOptions | .entry => false
  | _ => true

namespace Value

mutual

/-- Replaces declared records by maps, also inside collections. -/
def flatten : Value → Value
  | list items => list (flattenItems items)
  | tuple items => tuple (flattenItems items)
  | map es => map (flattenEntries es)
  | record shape fields =>
    if shape.isDeclared then map (flattenFields fields) else record shape fields
  | v => v
termination_by structural v => v

/-- Replaces declared records by maps in every element. -/
def flattenItems : List Value → List Value
  | [] => []
  | v :: rest => flatten v :: flattenItems rest
termination_by structural vs => vs

/-- Replaces declared records by maps in every entry. -/
def flattenEntries : List (Value × Value) → List (Value × Value)
  | [] => []
  | (k, v) :: rest => (flatten k, flatten v) :: flattenEntries rest
termination_by structural es => es

/-- The fields of a record as entries of a map. -/
def flattenFields : List (String × Value) → List (Value × Value)
  | [] => []
  | (k, v) :: rest => (text k, flatten v) :: flattenFields rest
termination_by structural es => es

end

@[simp] theorem flatten_text (s : String) : flatten (text s) = text s := by
  simp [flatten]

end Value

end AccessControl
