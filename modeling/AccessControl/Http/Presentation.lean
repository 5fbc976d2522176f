import AccessControl.Http.Failure
import AccessControl.Directory.User
import AccessControl.Options.Field
import AccessControl.Registry.Basic

/-!
# What responses show

A user is shown with texts for the id, the address, the role and the name, with a whole number as
rank, with a known status, and with texts as the ids that the user manages.  The directory keeps
what it was given; a record that does not fit this shape cannot be shown.

The definition of a role may be any value.  It is shown as far as JSON has a form for it: tuples
and sets become lists, a member of an enumeration becomes the value behind it, and a float that is
no number becomes nothing.  A function has no form.
-/

namespace AccessControl.Http

/-! ## 1. Users -/

/-- The digits of a whole number, perhaps with single underscores between them and with zeros
after a point. -/
def wholeNumber? (cs : List Char) : Option Int :=
  let whole := cs.takeWhile (· != '.')
  let fraction := (cs.dropWhile (· != '.')).drop 1
  let parts := splitAt '_' whole
  if fraction.all (· == '0') && parts.all fun part => !part.isEmpty && part.all Json.isDigit then
    some (Json.digitsValue parts.flatten)
  else none

/-- The whole number that a text stands for. -/
def numberOfText? (s : String) : Option Int :=
  match (Text.trimBy Text.isWhite s).toList with
  | '-' :: rest => (wholeNumber? rest).map fun n => -n
  | '+' :: rest => wholeNumber? rest
  | cs => wholeNumber? cs

/-- The whole number that a value is or stands for. -/
def number? : Value → Option Int
  | .int n => some n
  | .bool b => some (if b then 1 else 0)
  | .float x =>
    match FloatValue.ofFloat x with
    | .finite b =>
      let n := b.truncate
      if b.compareInt n == .eq && n.natAbs < Nat.pow 2 63 then some n else none
    | _ => none
  | .bytes data => (Text.decodeUtf8 data).bind numberOfText?
  | .member _ _ (.int n) => some n
  | v => v.text?.bind numberOfText?

/-- A whole number.  What it could be instead of one is not told apart. -/
def readNumber (place : List Place) (v : Value) : Checked Value :=
  match number? v with
  | some n => .ok (.int n)
  | none => Checked.issue place (.refused "not a whole number")

/-- A text. -/
def readText (place : List Place) (v : Value) : Checked Value :=
  (Field.text place v).map .text

/-- A known status. -/
def readStatus (place : List Place) (v : Value) : Checked Value :=
  match Status.ofValue? v with
  | some s => .ok (.text s.name)
  | none => Checked.issue place (.notChoice (Status.all.map Status.name))

/-- A list of texts. -/
def readTexts (place : List Place) (v : Value) : Checked Value :=
  match v with
  | .list items =>
    (Checked.each (fun n => readText (place ++ [.index n])) 0 items).map .list
  | _ => Checked.issue place .notList

/-- The user as it is shown. -/
def showUser (u : User) : Checked Value :=
  let field (key : String) (read : List Place → Value → Checked Value) (v : Value) :
      Checked (Value × Value) :=
    (read [.key key] v).map fun shown => (.text key, shown)
  (Checked.all
    [field "user_id" readText u.userId, field "email" readText u.email,
      field "role" readText u.role, field "rank" readNumber u.rank,
      field "status" readStatus u.status, field "display_name" readText u.displayName,
      field "assigned_users" readTexts u.assignedUsers]).map .map

/-- The user as it is shown, if it can be. -/
def present (u : User) : Except Failure Value :=
  (showUser u).mapError .unpresentable

/-! ## 2. Definitions of roles -/

/-- The text that a key of a map is written as. -/
def portableKey? : Value → Option String
  | .null => some "None"
  | .bool b => some (if b then "true" else "false")
  | .int n => some (toString n)
  | .float x => some (Decimal.text x)
  | .bytes data => Text.decodeUtf8 data
  | v => v.text?

mutual

/-- The form of a value in JSON, if it has one. -/
def portable : Value → Option Value
  | .null => some .null
  | .bool b => some (.bool b)
  | .int n => some (.int n)
  | .float x =>
    match FloatValue.ofFloat x with
    | .finite _ => some (.float x)
    | _ => some .null
  | .text s => some (.text s)
  | .bytes data => (Text.decodeUtf8 data).map .text
  | .list items => (portableItems items).map .list
  | .tuple items => (portableItems items).map .list
  | .set items => (portableItems items).map .list
  | .map es => (portableEntries es).map .map
  | .view _ => none
  | .member _ _ v => portable v
  | .record .loose _ => none
  | .record _ fields => (portableFields fields).map .map
  | .callable _ => none
termination_by structural v => v

/-- The forms of the elements of a collection. -/
def portableItems : List Value → Option (List Value)
  | [] => some []
  | v :: rest =>
    match portable v, portableItems rest with
    | some first, some others => some (first :: others)
    | _, _ => none
termination_by structural vs => vs

/-- The forms of the entries of a map. -/
def portableEntries : List (Value × Value) → Option (List (Value × Value))
  | [] => some []
  | (k, v) :: rest =>
    match portableKey? k, portable v, portableEntries rest with
    | some key, some first, some others => some ((.text key, first) :: others)
    | _, _, _ => none
termination_by structural es => es

/-- The forms of the fields of a record. -/
def portableFields : List (String × Value) → Option (List (Value × Value))
  | [] => some []
  | (k, v) :: rest =>
    match portable v, portableFields rest with
    | some first, some others => some ((.text k, first) :: others)
    | _, _ => none
termination_by structural es => es

end

/-- A report on roles in a form for JSON. -/
def write (report : Except RoleReport.Flaw Value) : Except Failure Value :=
  match report with
  | .error flaw => .error (.report flaw)
  | .ok v =>
    match portable v with
    | some shown => .ok shown
    | none => .error .unwritable

end AccessControl.Http
