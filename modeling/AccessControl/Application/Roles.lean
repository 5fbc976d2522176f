import AccessControl.Value.Equality
import AccessControl.Value.Text

/-!
# The roles of the application

Five roles are known.  Each has a rank, and a lower rank means more authority; roles of one rank
have equal authority.  Whoever registers without being given a role is a seller.
-/

namespace AccessControl

/-- A role of the application. -/
inductive Role
  | superAdmin
  | admin
  | manager
  | agent
  | seller
  deriving DecidableEq, Repr

namespace Role

/-- All roles, in the order of their declaration. -/
def all : List Role :=
  [superAdmin, admin, manager, agent, seller]

/-- The name of the role. -/
def name : Role → String
  | superAdmin => "SUPER_ADMIN"
  | admin => "ADMIN"
  | manager => "MANAGER"
  | agent => "AGENT"
  | seller => "SELLER"

/-- The authority of the role. -/
def rank : Role → Nat
  | superAdmin => 0
  | admin => 1
  | manager => 2
  | agent => 3
  | seller => 3

/-- Users of the role belong to the organisation, or come from outside. -/
def isInternal : Role → Bool
  | seller => false
  | _ => true

/-- The role with a name. -/
def ofName? (name : String) : Option Role :=
  all.find? fun r => r.name == name

@[simp] theorem ofName?_name (r : Role) : ofName? r.name = some r := by
  cases r <;> rfl

/-- The role whose name a value is. -/
def ofValue? (v : Value) : Option Role :=
  v.text?.bind ofName?

/-- The role as a member of the enumeration of roles. -/
def member (r : Role) : Value :=
  .member "Roles" r.name (.text r.name)

/-- What is known of the role, as a record. -/
def definition (r : Role) : Value :=
  let kind := if r.isInternal then "INTERNAL" else "EXTERNAL"
  .record .roleDefinition
    [("rank", .int r.rank), ("user_type", .member "UserType" kind (.text kind)),
      ("invite_only", .bool true)]

/-- The role of those who were given none. -/
def default : Role := seller

/-- The enumeration of the roles. -/
def enumeration : Value :=
  .callable (.enumeration "Roles" (all.map fun r => (r.name, .text r.name)))

/-- All roles with their definitions. -/
def definitions : Value :=
  .map (all.map fun r => (r.member, r.definition))

end Role

/-- The message about a value that is no member of an enumeration. -/
def notMember (v : Value) (enumeration : String) : String :=
  v.shown ++ " is not a valid " ++ enumeration

end AccessControl
