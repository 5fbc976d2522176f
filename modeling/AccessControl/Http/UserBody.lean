import AccessControl.Http.Body
import AccessControl.Options.Field
import AccessControl.Directory.User

/-!
# Bodies that describe users

A user is created from an id, an e-mail address, a role, a name to be shown and the ids that the
user is to manage.  The rank is that of the role, so that nobody gives away more authority than
the role has.  A user is changed in the name or in the address; nothing else can be changed.

Texts are stripped of white space before their length is looked at.  The objections to a body are
reported together, each with the part of the body that it is about; if a field is missing this is
the whole body.
-/

namespace AccessControl.Http

/-- A user to be created. -/
structure NewUser where
  userId : String
  email : String
  role : Role
  displayName : String
  assignedUsers : List String
  deriving DecidableEq, Repr

/-- Changes of a user. -/
structure UserChanges where
  displayName : Option String
  email : Option String
  deriving DecidableEq, Repr

namespace NewUser

/-- The user: active, and with the rank of the role. -/
def user (n : NewUser) : User where
  userId := .text n.userId
  email := .text n.email
  role := .text n.role.name
  rank := .int n.role.rank
  status := Status.active.member
  displayName := .text n.displayName
  assignedUsers := .list (n.assignedUsers.map .text)

end NewUser

namespace UserChanges

/-- The fields that change. -/
def fields (c : UserChanges) : List (String × Value) :=
  (c.displayName.map fun s => ("display_name", Value.text s)).toList
    ++ (c.email.map fun s => ("email", Value.text s)).toList

end UserChanges

namespace UserBody

/-! ## 1. Fields -/

/-- A text, stripped of white space, with at least and at most so many characters. -/
def readText (place : List Place) (least most : Nat) (v : Value) : Checked String :=
  (Field.text place v).bind fun given =>
    let s := Text.trimBy Text.isWhite given
    if s.length < least then Checked.issue place (.textTooShort least)
    else if most < s.length then Checked.issue place (.textTooLong most)
    else .ok s

/-- A text without bounds, stripped of white space. -/
def readItem (place : List Place) (v : Value) : Checked String :=
  (Field.text place v).map (Text.trimBy Text.isWhite)

/-- A role, by its name. -/
def readRole (place : List Place) (v : Value) : Checked Role :=
  match Role.ofValue? v with
  | some r => .ok r
  | none => Checked.issue place (.notChoice (Role.all.map Role.name))

/-- The most users that can be assigned at once. -/
def mostAssigned : Nat := 500

/-- A list of ids. -/
def readIds (place : List Place) (v : Value) : Checked (List String) :=
  match v with
  | .list items =>
    if mostAssigned < items.length then
      Checked.issue place (.listTooLong mostAssigned items.length)
    else Checked.each (fun n => readItem (place ++ [.index n])) 0 items
  | _ => Checked.issue place .notList

/-- The place of a field. -/
def placeOf (key : String) : List Place := [.key "body", .key key]

/-- A field that has to be there. -/
def required (fields : List (Value × Value)) (key : String)
    (read : List Place → Value → Checked α) : Checked α :=
  Field.needed (placeOf key) (read (placeOf key)) (Value.find? (.text key) fields)

/-- A field that may be left out. -/
def optional (fields : List (Value × Value)) (key : String)
    (read : List Place → Value → Checked α) (default : α) : Checked α :=
  match Value.find? (.text key) fields with
  | some v => read (placeOf key) v
  | none => .ok default

/-- A field that may be left out or nothing. -/
def nullable (read : List Place → Value → Checked α) (place : List Place) (v : Value) :
    Checked (Option α) :=
  if v.isNull then .ok none else (read place v).map some

/-! ## 2. Bodies -/

/-- The shortest and the longest e-mail address. -/
def readEmail (place : List Place) : Value → Checked String := readText place 3 255

/-- A name to be shown. -/
def readName (place : List Place) : Value → Checked String := readText place 0 255

/-- The user that the fields of a body describe. -/
def readNewUser (fields : List (Value × Value)) : Checked NewUser :=
  let user := (required fields "user_id" fun p => readText p 1 64).map NewUser.mk
  let user := Checked.also user (required fields "email" readEmail)
  let user := Checked.also user (required fields "role" readRole)
  let user := Checked.also user (optional fields "display_name" readName "")
  Checked.also user (optional fields "assigned_users" readIds [])

/-- The changes that the fields of a body describe. -/
def readChanges (fields : List (Value × Value)) : Checked UserChanges :=
  let changes := (optional fields "display_name" (nullable readName) none).map UserChanges.mk
  Checked.also changes (optional fields "email" (nullable readEmail) none)

/-! ## 3. Objections -/

/-- The part of a value at a place. -/
def partAt (v : Value) : List Place → Value
  | [] => v
  | .key key :: rest =>
    match v with
    | .map es => partAt ((Value.find? (.text key) es).getD .null) rest
    | _ => .null
  | .index n :: rest =>
    match v with
    | .list items => partAt ((items[n.toNat]?).getD .null) rest
    | _ => .null

/-- The objection that an issue of a body is; what is missing is missing in the whole. -/
def objection (body : Value) (issue : Issue) : Objection where
  issue := issue
  input :=
    match issue.complaint with
    | .missing => body
    | _ => partAt body (issue.place.drop 1)

/-- Reads a body by its fields. -/
def read (readFields : List (Value × Value) → Checked α) (body : Option Value) :
    Except Failure α :=
  let whole (complaint : Complaint) (input : Value) : Except Failure α :=
    .error (.invalidBody [⟨⟨[.key "body"], complaint⟩, input⟩])
  match body with
  | none => whole .missing .null
  | some (.map fields) =>
    (readFields fields).mapError fun found =>
      .invalidBody (found.map (objection (.map fields)))
  | some v => whole .notFields v

end UserBody

end AccessControl.Http
