import AccessControl.Application.Roles
import AccessControl.Definition
import AccessControl.Options.Root

/-!
# The rulebook of the application

There is one resource, the user.  Five actions can be applied to it, and four levels say to
which users a grant extends: to all of them, to those of equal or lower authority, to one's own
record, or to the users one manages.

| role        | create, delete | list     | read, update  |
|-------------|----------------|----------|---------------|
| super admin | all            | all      | all           |
| admin       | by rank        | by rank  | by rank       |
| manager     |                | assigned | assigned, own |
| agent       |                |          | own           |
| seller      |                |          | own           |

Every role may be the owner of a user.  Before anything else the account has to be active.
-/

namespace AccessControl

/-- What can be done with a user. -/
inductive UserAction
  | create
  | read
  | update
  | delete
  | list
  deriving DecidableEq, Repr

namespace UserAction

/-- All actions, in the order of their declaration. -/
def all : List UserAction := [create, read, update, delete, list]

/-- The name of the action. -/
def name : UserAction → String
  | create => "CREATE"
  | read => "READ"
  | update => "UPDATE"
  | delete => "DELETE"
  | list => "LIST"

/-- The action as a member of the enumeration of actions. -/
def member (a : UserAction) : Value :=
  .member "UserActions" a.name (.text a.name)

/-- The enumeration of the actions. -/
def enumeration : Value :=
  .callable (.enumeration "UserActions" (all.map fun a => (a.name, .text a.name)))

end UserAction

/-- To which users a grant extends. -/
inductive UserLevel
  | all
  | byRank
  | own
  | assigned
  deriving DecidableEq, Repr

namespace UserLevel

/-- All levels, in the order of their declaration. -/
def every : List UserLevel := [all, byRank, own, assigned]

/-- The name of the level. -/
def name : UserLevel → String
  | all => "ALL"
  | byRank => "ALL_RANK"
  | own => "OWN"
  | assigned => "ASSIGNED"

/-- The predicate of the level. -/
def rule : UserLevel → Rule
  | all => .anyone
  | byRank => .equalOrLowerRank
  | own => .ownRecord
  | assigned => .assignedRecord

/-- The priority of the level. -/
def priority : UserLevel → Nat
  | all => 0
  | byRank => 1
  | own => 2
  | assigned => 3

/-- The level as a member of the enumeration of levels. -/
def member (l : UserLevel) : Value :=
  .member "UserAccessLevels" l.name (.text l.name)

/-- The enumeration of the levels. -/
def enumeration : Value :=
  .callable (.enumeration "UserAccessLevels" (every.map fun l => (l.name, .text l.name)))

/-- The level as a record. -/
def record (l : UserLevel) : Value :=
  .record .accessLevel [("fn", .callable (.rule l.rule)), ("priority", .int l.priority)]

end UserLevel

namespace Rulebook

/-- The name of the only resource. -/
def userResource : String := "User"

/-- The resource as a member of the enumeration of resources. -/
def userMember : Value :=
  .member "Resources" "USER" (.text userResource)

/-- The enumeration of the resources. -/
def resources : Value :=
  .callable (.enumeration "Resources" [("USER", .text userResource)])

/-- The name of the only relationship. -/
def owner : Value :=
  .member "UserRelationships" "OWNER" (.text "OWNER")

/-- The enumeration of the relationships. -/
def relationships : Value :=
  .callable (.enumeration "UserRelationships" [("OWNER", .text "OWNER")])

/-- The class of users. -/
def userModel : Model where
  name := "User"
  fields := ["user_id", "email", "role", "rank", "status", "display_name", "assigned_users"]
  closed := true

/-- The levels through which a role is granted its actions, in the order of declaration. -/
def permissions : Role → List (UserAction × List UserLevel)
  | .superAdmin => [(.create, [.all]), (.read, [.all]), (.list, [.all]), (.update, [.all]),
      (.delete, [.all])]
  | .admin => [(.create, [.byRank]), (.read, [.byRank]), (.list, [.byRank]), (.update, [.byRank]),
      (.delete, [.byRank])]
  | .manager => [(.read, [.assigned, .own]), (.list, [.assigned]), (.update, [.assigned, .own])]
  | .agent => [(.read, [.own]), (.update, [.own])]
  | .seller => [(.read, [.own]), (.update, [.own])]

/-- What a role is granted, as a record. -/
def grant (r : Role) : Value :=
  .record .grant
    [("permissions", .map ((permissions r).map fun p =>
        (p.1.member, .list (p.2.map UserLevel.member)))),
      ("relationships", .list [owner])]

/-- The rulebook of the user resource. -/
def userDefinition : Definition where
  identifier := .text "user_id"
  actions := UserAction.enumeration
  levels := .map (UserLevel.every.map fun l => (l.member, l.record))
  relationships := relationships
  roles := .map (Role.all.map fun r => (r.member, grant r))
  model := .callable (.model userModel)

/-- The options of the feature that owns the user resource. -/
def userFeature : Value :=
  .map [(.text "resources",
    .list [.map [(.text "name", userMember), (.text "definition", userDefinition.toValue)]])]

/-- The account has to be active. -/
def activeAccount : Value :=
  RootOptions.checkRecord (.text "ActiveAccount") (.text "account is not active")
    (.callable (.rule .activeAccount))

/-- The checks that every decision begins with. -/
def globalChecks : Value :=
  .list [activeAccount]

/-- The options that describe the roles, the resources and the checks of the application. -/
def baseOptions : List (Value × Value) :=
  [(.text "roles", Role.definitions), (.text "default", Role.default.member),
    (.text "resources", resources), (.text "global_checks", globalChecks),
    (.text "context_resolver", .callable (.resolver .directory))]

/-- Sets some options, in their order, over others. -/
def override (options changes : List (Value × Value)) : List (Value × Value) :=
  changes.foldl (fun acc e => Value.put e.1 e.2 acc) options

/-- The options of the application: decisions are logged as a matter of security, and denials
carry a status for the client. -/
def rootOptions (logging : Bool) : List (Value × Value) :=
  override baseOptions
    [(.text "log", .bool logging), (.text "logger", .callable (.sink .securityLog)),
      (.text "authn_exception", .callable (.refusal .httpUnauthenticated)),
      (.text "authz_exception", .callable (.refusal .httpUnauthorized))]

end Rulebook

end AccessControl
