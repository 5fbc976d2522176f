import AccessControl.Value.Text

/-!
# What is wrong with a shape

Options, settings and request bodies are checked against a declared shape.  Everything that does
not fit is reported together: for each issue the place where it is and the complaint.
-/

namespace AccessControl

/-- A step on the way to a value: a key of a map or a place in a list. -/
inductive Place
  | key (name : String)
  | index (n : Int)
  deriving DecidableEq, Repr

namespace Place

/-- The step as it is written in a message. -/
def text : Place → String
  | key name => name
  | index n => toString n

/-- The step to what is under a key of any kind. -/
def ofKey : Value → Place
  | .bool b => index (if b then 1 else 0)
  | .int n => index n
  | v => match v.text? with
    | some s => key s
    | none => key v.shown

end Place

/-- What is wrong with a value. -/
inductive Complaint
  /-- It is not there. -/
  | missing
  | notText
  /-- It is given as bytes that are not text. -/
  | notUnicode
  | notMap
  /-- It is neither a map nor the record with this name. -/
  | notRecord (name : String)
  /-- It is not a map, and not a record with the needed fields. -/
  | notFields
  | notList
  | notFunction
  | notBool
  /-- It is a text or a number that does not stand for a truth value. -/
  | unreadableBool
  | textTooShort (least : Nat)
  | textTooLong (most : Nat)
  | listTooLong (most actual : Nat)
  | emptyMap
  /-- It is none of the choices. -/
  | notChoice (choices : List String)
  /-- The text is not JSON. -/
  | notJson (reason : String)
  /-- It is refused by a rule of its own. -/
  | refused (reason : String)
  deriving DecidableEq, Repr

namespace Complaint

/-- Choices in one phrase: `'a', 'b' or 'c'`. -/
def alternatives (choices : List String) : String :=
  let quoted := choices.map fun c => "'" ++ c ++ "'"
  match quoted.reverse with
  | [] => ""
  | [c] => c
  | c :: before => ", ".intercalate before.reverse ++ " or " ++ c

/-- A number of things. -/
def counted (n : Nat) (thing : String) : String :=
  toString n ++ " " ++ thing ++ (if n = 1 then "" else "s")

/-- The short name of the complaint. -/
def code : Complaint → String
  | missing => "missing"
  | notText => "string_type"
  | notUnicode => "string_unicode"
  | notMap => "dict_type"
  | notRecord _ => "model_type"
  | notFields => "model_attributes_type"
  | notList => "list_type"
  | notFunction => "callable_type"
  | notBool => "bool_type"
  | unreadableBool => "bool_parsing"
  | textTooShort _ => "string_too_short"
  | textTooLong _ => "string_too_long"
  | listTooLong _ _ => "too_long"
  | emptyMap => "too_short"
  | notChoice _ => "enum"
  | notJson _ => "json_invalid"
  | refused _ => "value_error"

/-- The complaint in words. -/
def message : Complaint → String
  | missing => "Field required"
  | notText => "Input should be a valid string"
  | notUnicode => "Input should be a valid string, unable to parse raw data as a unicode string"
  | notMap => "Input should be a valid dictionary"
  | notRecord name => "Input should be a valid dictionary or instance of " ++ name
  | notFields => "Input should be a valid dictionary or object to extract fields from"
  | notList => "Input should be a valid list"
  | notFunction => "Input should be callable"
  | notBool => "Input should be a valid boolean"
  | unreadableBool => "Input should be a valid boolean, unable to interpret input"
  | textTooShort least => "String should have at least " ++ counted least "character"
  | textTooLong most => "String should have at most " ++ counted most "character"
  | listTooLong most actual =>
    "List should have at most " ++ counted most "item" ++ " after validation, not "
      ++ toString actual
  | emptyMap => "Dictionary should have at least 1 item after validation, not 0"
  | notChoice choices => "Input should be " ++ alternatives choices
  | notJson _ => "JSON decode error"
  | refused reason => "Value error, " ++ reason

/-- The quantities that the words mention. -/
def details : Complaint → List (String × Value)
  | textTooShort least => [("min_length", .int least)]
  | textTooLong most => [("max_length", .int most)]
  | listTooLong most actual =>
    [("field_type", .text "List"), ("max_length", .int most), ("actual_length", .int actual)]
  | notChoice choices => [("expected", .text (alternatives choices))]
  | notJson reason => [("error", .text reason)]
  | _ => []

end Complaint

/-- One thing that does not fit. -/
structure Issue where
  place : List Place
  complaint : Complaint
  deriving DecidableEq, Repr

namespace Issue

/-- The issue on one line; an issue of the whole record is located at `options`. -/
def line (i : Issue) : String :=
  let place := ".".intercalate (i.place.map Place.text)
  (if place.isEmpty then "options" else place) ++ ": " ++ i.complaint.message

end Issue

/-- What reading a value gives: a result, or the issues that were found. -/
abbrev Checked (α : Type) := Except (List Issue) α

namespace Checked

variable {α β : Type}

/-- One issue at a place. -/
def issue (place : List Place) (complaint : Complaint) : Checked α :=
  .error [⟨place, complaint⟩]

/-- Goes on with one more part; the issues of both readings are kept. -/
def also : Checked (α → β) → Checked α → Checked β
  | .ok f, .ok a => .ok (f a)
  | .error xs, .ok _ => .error xs
  | .ok _, .error ys => .error ys
  | .error xs, .error ys => .error (xs ++ ys)

/-- Every reading of a list, with the issues of all. -/
def all : List (Checked α) → Checked (List α)
  | [] => .ok []
  | x :: rest => also (x.map List.cons) (all rest)

/-- Reads every element of a list, each at its place. -/
def each (read : Nat → α → Checked β) (start : Nat) : List α → Checked (List β)
  | [] => .ok []
  | a :: rest => also ((read start a).map List.cons) (each read (start + 1) rest)

end Checked

end AccessControl
