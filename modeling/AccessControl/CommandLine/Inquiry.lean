import AccessControl.CommandLine.Reading
import AccessControl.Application.Rulebook
import AccessControl.Directory.User

/-!
# What the tool can be asked

The tool shows the registry of the application: its roles, its resources, and what a role is
granted.  And it tries decisions out, without a server: a principal is described by switches, and
the question is whether it has a permission, or whether it may do something to a user, who is
described by switches as well.
-/

namespace AccessControl

/-- A principal as it is described on a command line. -/
structure Principal where
  userId : String
  role : Role
  /-- The rank, if it is not that of the role. -/
  rank : Option Int
  assigned : List String
  inactive : Bool
  deriving DecidableEq, Repr

/-- A user to whom something is to be done. -/
structure Target where
  userId : String
  role : Role
  /-- The rank, if it is not that of the role. -/
  rank : Option Int
  deriving DecidableEq, Repr

/-- What the tool is asked. -/
inductive Inquiry
  | roles
  | resources
  | roleInfo (role : Value)
  /-- May the principal do this, through all of these levels if any are named? -/
  | check (principal : Principal) (resource action : Value) (levels : Option (List Value))
  /-- May the principal do this to the target? -/
  | can (principal : Principal) (resource action : Value) (target : Target)

namespace Principal

/-- The context of a request by the principal. -/
def context (p : Principal) : Value :=
  .record .context
    [("user_id", .text p.userId), ("role", .text p.role.name),
      ("rank", .int (p.rank.getD p.role.rank)), ("is_active", .bool !p.inactive),
      ("assigned_users", .tuple (p.assigned.map Value.text))]

end Principal

namespace Target

/-- The user that is described; nothing else is known of it. -/
def user (t : Target) : User where
  userId := .text t.userId
  email := .text ""
  role := .text t.role.name
  rank := .int (t.rank.getD t.role.rank)
  status := Status.active.member
  displayName := .text ""
  assignedUsers := .list []

end Target

namespace Inquiry

open CommandLine

/-! ## 1. The grammar -/

/-- The names of the roles. -/
def roleNames : List String :=
  Role.all.map Role.name

/-- The parts that describe the principal, what it wants to do, and to which resource. -/
def principalParts : List Part :=
  [.switch { names := ["--user-id"], takes := .text, placeholder := "USER_ID", required := true,
             help := "Principal user id" },
    .switch { names := ["--role"], takes := .choice roleNames, required := true,
              help := "Principal role" },
    .switch { names := ["--rank"], takes := .number, placeholder := "RANK",
              help := "Principal rank (default: the role's rank)" },
    .switch { names := ["--assigned"], takes := .texts, placeholder := "USER_ID",
              help := "User id assigned to the principal (repeatable)" },
    .switch { names := ["--inactive"], takes := .nothing,
              help := "Mark the principal's account as not active" },
    .word { name := "resource", help := "Resource name, e.g. User" },
    .word { name := "action", help := "Action name, e.g. READ" }]

/-- The part that names a level. -/
def levelPart : Part :=
  .switch { names := ["--access-level"], takes := .texts, placeholder := "LEVEL",
            help := "Require this access level (repeatable)" }

/-- The parts that describe the target. -/
def targetParts : List Part :=
  [.switch { names := ["--target-id"], takes := .text, placeholder := "TARGET_ID",
             required := true, help := "user_id of the target user" },
    .switch { names := ["--target-role"], takes := .choice roleNames },
    .switch { names := ["--target-rank"], takes := .number, placeholder := "TARGET_RANK",
              help := "Target rank (default: the target role's rank)" }]

/-- The tool with its commands. -/
def tool : Tool where
  program := "gatekeeper"
  description := "Inspect the authorization registry and dry-run decisions."
  entries :=
    [{ name := "roles", help := "List roles and their definitions", parts := [] },
      { name := "resources", help := "List declared resources", parts := [] },
      { name := "role-info", help := "Show everything a role is granted",
        parts := [.word { name := "role" }] },
      { name := "check", help := "Dry-run has_permission for a principal",
        parts := principalParts ++ [levelPart] },
      { name := "can", help := "Dry-run can() against a target user",
        parts := principalParts ++ targetParts }]

/-! ## 2. From values to requests -/

/-- The text under a key; empty if there is none. -/
def textAt (g : Given) (key : String) : String :=
  ((g.lookup key).bind Value.text?).getD ""

/-- The number under a key. -/
def numberAt (g : Given) (key : String) : Option Int :=
  match g.lookup key with
  | some (.int n) => some n
  | _ => none

/-- The role under a key; the default role if there is none. -/
def roleAt (g : Given) (key : String) : Role :=
  ((g.lookup key).bind Role.ofValue?).getD Role.default

/-- The principal that the values describe. -/
def principalOf (g : Given) : Principal where
  userId := textAt g "--user-id"
  role := roleAt g "--role"
  rank := numberAt g "--rank"
  assigned := (g.texts "--assigned").filterMap Value.text?
  inactive := (g.lookup "--inactive").isSome

/-- The target that the values describe. -/
def targetOf (g : Given) : Target where
  userId := textAt g "--target-id"
  role := roleAt g "--target-role"
  rank := numberAt g "--target-rank"

/-- The request that a command with its values makes. -/
def ofCommand (name : String) (g : Given) : Inquiry :=
  let word (key : String) : Value := (g.lookup key).getD .null
  match name with
  | "roles" => .roles
  | "resources" => .resources
  | "role-info" => .roleInfo (word "role")
  | "check" =>
    let levels := (g.lookup "--access-level").map fun _ => g.texts "--access-level"
    .check (principalOf g) (word "resource") (word "action") levels
  | _ => .can (principalOf g) (word "resource") (word "action") (targetOf g)

/-- The request that a command line makes, or how the tool ends without one. -/
def read (arguments : List String) : Except Report Inquiry :=
  (tool.read arguments).map fun command => ofCommand command.1.name command.2

end Inquiry

end AccessControl
