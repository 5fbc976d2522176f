import AccessControl.Value.Equality
import AccessControl.Value.Text
import AccessControl.Issue
import AccessControl.Text.Utf8

/-!
# Fields of an option record

Option records are maps with known keys.  Every field is checked on its own, and all issues that
are found are reported together, in the order of the fields.  A field is read in one of two ways:
what is wrong with its shape becomes an issue, while a value that cannot even be looked at ends
the reading at once with a `Misuse`.
-/

namespace AccessControl

namespace Field

/-- A text: given as such, as a member of an enumeration of texts, or as its bytes. -/
def text (place : List Place) (v : Value) : Checked String :=
  match v with
  | .bytes data =>
    match Text.decodeUtf8 data with
    | some s => .ok s
    | none => Checked.issue place .notUnicode
  | v =>
    match v.text? with
    | some s => .ok s
    | none => Checked.issue place .notText

/-- A text that is not empty. -/
def nonemptyText (place : List Place) (v : Value) : Checked String :=
  match text place v with
  | .ok s =>
    if s.isEmpty then Checked.issue place (.textTooShort 1) else .ok s
  | .error issues => .error issues

/-- Something that can be called. -/
def function (place : List Place) (v : Value) : Checked Callable :=
  match v.callable? with
  | some f => .ok f
  | none => Checked.issue place .notFunction

/-- Something that can be called, or nothing. -/
def function? (place : List Place) : Option Value → Checked (Option Callable)
  | none => .ok none
  | some .null => .ok none
  | some v => match function place v with
    | .ok f => .ok (some f)
    | .error issues => .error issues

/-- A truth value, or nothing. -/
def flag? (place : List Place) : Option Value → Checked (Option Bool)
  | none => .ok none
  | some .null => .ok none
  | some (.bool b) => .ok (some b)
  | some _ => Checked.issue place .notBool

/-- A field that has to be there. -/
def needed (place : List Place) (read : Value → Checked α) : Option Value → Checked α
  | some v => read v
  | none => Checked.issue place .missing

end Field

end AccessControl
