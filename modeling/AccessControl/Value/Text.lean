import AccessControl.Value.Basic
import AccessControl.Text.Quoted
import AccessControl.Decimal.Render

/-!
# The text of a value

A value inside a message is written in one of two ways.  `Value.shown` shows its structure:
texts are quoted, collections have their brackets, records their field names.  `Value.plain`
is the text itself for a text and the bare name for a member of an enumeration; for everything
else the two agree.
-/

namespace AccessControl

/-- What a function is called inside a message. -/
def Callable.title : Callable → String
  | .defined label _ => "<function " ++ label ++ ">"
  | .enumeration name _ => "<enum '" ++ name ++ "'>"
  | .model m => "<class '" ++ m.name ++ "'>"
  | .integer => "<class 'int'>"
  | .rule _ => "<function>"
  | .sink _ => "<function>"
  | .refusal _ => "<function>"
  | .resolver _ => "<function>"

namespace Value

/-- Parts with a comma and a blank between them. -/
def commaSeparated (parts : List String) : String :=
  ", ".intercalate parts

mutual

/-- The text of a value that shows its structure. -/
def shown : Value → String
  | null => "None"
  | bool b => if b then "True" else "False"
  | int n => toString n
  | float x => Decimal.text x
  | text s => Text.quoted s
  | bytes data => Text.quotedBytes data
  | list items => "[" ++ commaSeparated (shownItems items) ++ "]"
  | tuple [v] => "(" ++ shown v ++ ",)"
  | tuple items => "(" ++ commaSeparated (shownItems items) ++ ")"
  | set [] => "set()"
  | set items => "\x7b" ++ commaSeparated (shownItems items) ++ "\x7d"
  | map es => "\x7b" ++ commaSeparated (shownEntries es) ++ "\x7d"
  | view es => "mappingproxy(\x7b" ++ commaSeparated (shownEntries es) ++ "\x7d)"
  | member e n v => "<" ++ e ++ "." ++ n ++ ": " ++ shown v ++ ">"
  | record .loose fields => "namespace(" ++ commaSeparated (shownFields fields) ++ ")"
  | record shape fields => shape.typeName ++ "(" ++ commaSeparated (shownFields fields) ++ ")"
  | callable f => f.title
termination_by structural v => v

/-- The elements of a collection, each showing its structure. -/
def shownItems : List Value → List String
  | [] => []
  | v :: rest => shown v :: shownItems rest
termination_by structural vs => vs

/-- The entries of a map, each as key and value. -/
def shownEntries : List (Value × Value) → List String
  | [] => []
  | (k, v) :: rest => (shown k ++ ": " ++ shown v) :: shownEntries rest
termination_by structural es => es

/-- The fields of a record, each as name and value. -/
def shownFields : List (String × Value) → List String
  | [] => []
  | (k, v) :: rest => (k ++ "=" ++ shown v) :: shownFields rest
termination_by structural es => es

end

/-- The text of a value. -/
def plain : Value → String
  | text s => s
  | member e n _ => e ++ "." ++ n
  | v => shown v

@[simp] theorem plain_text (s : String) : plain (text s) = s := rfl

end Value

end AccessControl
