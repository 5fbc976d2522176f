import AccessControl.Application.Roles
import AccessControl.Fault

/-!
# Users

A user has an id, an e-mail address, a role with a rank, a status, a name to be shown, and the
ids of the users that he or she manages.  The directory keeps what it is given, so the fields are
values of any kind; what is read from a seed has texts, a whole number and known members where
they belong, save for the address and the name.
-/

namespace AccessControl

/-- The status of an account. -/
inductive Status
  | active
  | pending
  | suspended
  deriving DecidableEq, Repr

namespace Status

/-- All statuses, in the order of their declaration. -/
def all : List Status := [active, pending, suspended]

/-- The name of the status. -/
def name : Status → String
  | active => "ACTIVE"
  | pending => "PENDING"
  | suspended => "SUSPENDED"

/-- The status as a member of the enumeration of statuses. -/
def member (s : Status) : Value :=
  .member "UserStatus" s.name (.text s.name)

/-- The status whose name a value is. -/
def ofValue? (v : Value) : Option Status :=
  v.text?.bind fun s => all.find? fun status => status.name == s

@[simp] theorem ofValue?_member (s : Status) : ofValue? s.member = some s := by
  cases s <;> rfl

end Status

/-- A user of the directory. -/
structure User where
  userId : Value
  email : Value
  role : Value
  rank : Value
  status : Value
  displayName : Value
  assignedUsers : Value

namespace User

/-- The names of the fields, in their order. -/
def fieldNames : List String :=
  ["user_id", "email", "role", "rank", "status", "display_name", "assigned_users"]

/-- The fields of the user, in their order. -/
def fields (u : User) : List (String × Value) :=
  [("user_id", u.userId), ("email", u.email), ("role", u.role), ("rank", u.rank),
    ("status", u.status), ("display_name", u.displayName), ("assigned_users", u.assignedUsers)]

/-- The user as a record. -/
def toValue (u : User) : Value :=
  .record .user u.fields

/-- Sets a field; nothing if there is no such field. -/
def set? (u : User) (key : String) (v : Value) : Option User :=
  match key with
  | "user_id" => some { u with userId := v }
  | "email" => some { u with email := v }
  | "role" => some { u with role := v }
  | "rank" => some { u with rank := v }
  | "status" => some { u with status := v }
  | "display_name" => some { u with displayName := v }
  | "assigned_users" => some { u with assignedUsers := v }
  | _ => none

/-- The user with a list of its own as the ids it manages. -/
def copied (u : User) : Except Misuse User :=
  match u.assignedUsers.items? with
  | some items => .ok { u with assignedUsers := .list items }
  | none => .error (.notIterable u.assignedUsers.operandName)

/-- The account is active. -/
def isActive (u : User) : Bool :=
  u.status.same Status.active.member

/-- The user as the context of a request. -/
def toContext (u : User) : Except Misuse Value :=
  match u.assignedUsers.items? with
  | some items => .ok (.record .context
      [("user_id", u.userId), ("role", u.role), ("rank", u.rank),
        ("is_active", .bool u.isActive), ("assigned_users", .tuple items)])
  | none => .error (.notIterable u.assignedUsers.operandName)

/-- The user that a record of the shape of a user is. -/
def ofRecord (field : String → Option Value) : User where
  userId := (field "user_id").getD .null
  email := (field "email").getD .null
  role := (field "role").getD .null
  rank := (field "rank").getD .null
  status := (field "status").getD Status.active.member
  displayName := (field "display_name").getD (.text "")
  assignedUsers := (field "assigned_users").getD (.list [])

end User

end AccessControl
