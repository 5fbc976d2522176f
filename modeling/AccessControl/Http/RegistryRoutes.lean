import AccessControl.Http.Caller
import AccessControl.Http.Presentation

/-!
# The registry over HTTP

A caller who is authenticated may look at the roles, at the resources and at what a role is
granted, and may try out two kinds of decisions: these routes answer if the decision is an
allowance, and are refused like any other request if it is a denial.

What the caller holds is reported through the decisions themselves, one query of levels for every
action; relationships are read off the role, since a query for one that is not held would be a
denial.
-/

namespace AccessControl.Http.RegistryRoutes

open Access

/-- An answer of the registry, as part of a handler. -/
def consult (x : Except Fault α) : Handler α :=
  Handler.ofExcept (x.mapError Failure.fault)

/-- The response with a report. -/
def reported (report : Except RoleReport.Flaw Value) : Handler Response := do
  let v ← Handler.ofExcept (write report)
  return Response.json 200 v

/-- Lists the roles. -/
def roles (a : Access) : Handler Response := do
  let _ ← a.authenticated
  reported ((a.registry.roles.mapM (RoleReport.summary a.registry)).map .list)

/-- Shows a role. -/
def role (a : Access) (name : String) : Handler Response := do
  let _ ← a.authenticated
  match ← consult (a.registry.roleInfo (.text name)) with
  | none => Handler.fail (.noRole name)
  | some info => reported (RoleReport.ofRoleInfo info)

/-- Lists the resources. -/
def resources (a : Access) : Handler Response := do
  let _ ← a.authenticated
  return Response.json 200 (.list (a.registry.resourceNames.map .text))

/-! ## What the caller holds -/

/-- Names in order. -/
def ordered (names : List Value) : Handler (List Value) :=
  Handler.ofExcept ((RoleReport.orderedNames names).mapError Failure.report)

/-- The levels through which the caller is granted an action; nothing if there are none. -/
def grantedLevels (a : Access) (context resource action : Value) :
    Handler (Option (Value × List Value)) := do
  match ← a.decide context (.levels resource action) with
  | .levels (some found) => return some (action, found)
  | _ => return none

/-- The levels of all actions of a resource that are granted to the caller; nothing if the
resource is not defined. -/
def grantedActions (a : Access) (context : Value) (resource : String × Option Metadata) :
    Handler (Option (String × List (Value × List Value))) := do
  match resource.2 with
  | none => return none
  | some m =>
    let actions ← ordered m.actions
    let granted ← Handler.each (grantedLevels a context (.text resource.1)) actions
    return some (resource.1, granted.filterMap id)

/-- The relationships of a grant, in order. -/
def heldRelationships (g : String × Grant) : Handler (Value × List Value) := do
  let held ← ordered g.2.relationships
  return (.text g.1, held)

/-- Actions with their levels, as they are shown. -/
def actionsEntry (found : String × List (Value × List Value)) : Checked (Value × Value) :=
  (RoleReport.readEntries [.key "access_levels", .key found.1] RoleReport.readNames
    found.2).map fun v => (.text found.1, v)

/-- The summary of what a caller holds. -/
def accessSummary (userId role : String) (found : List (String × List (Value × List Value)))
    (relationships : List (Value × List Value)) : Checked Value :=
  let levels := (Checked.all (found.map actionsEntry)).map Value.map
  let held := RoleReport.readEntries [.key "relationships"] RoleReport.readNames relationships
  Checked.also
    (levels.map fun l h => .map [(.text "user_id", .text userId), (.text "role", .text role),
      (.text "access_levels", l), (.text "relationships", h)]) held

/-- Shows what the caller holds. -/
def me (a : Access) : Handler Response := do
  let context ← a.authenticated
  let found ← Handler.each (grantedActions a context) a.registry.resources
  let role ← consult (Expr.contextField context "role")
  let info ← consult (a.registry.roleInfo role)
  let relationships ← Handler.each heldRelationships ((info.map RoleInfo.permissions).getD [])
  let userId ← consult (Expr.contextField context "user_id")
  let summary := accessSummary userId.plain role.plain (found.filterMap id) relationships
  let v ← Handler.ofExcept (summary.mapError Failure.unpresentable)
  return Response.json 200 v

/-! ## Trying decisions out -/

/-- The response to a decision that is an allowance. -/
def allowed (resource subject : String) : Response :=
  Response.json 200 (.map [(.text "allowed", .bool true), (.text "resource", .text resource),
    (.text "subject", .text subject)])

/-- Tries a permission query out; without levels the action need only be granted at all. -/
def permission (a : Access) (resource action : String) (levels : List String) :
    Handler Response := do
  let context ← a.authenticated
  let _ ← a.decide context (.permission (.text resource) (.text action) (levels.map .text))
  return allowed resource action

/-- Tries a relationship query out. -/
def relationship (a : Access) (resource held : String) : Handler Response := do
  let context ← a.authenticated
  let _ ← a.decide context (.relationship (.text resource) (.text held))
  return allowed resource held

end AccessControl.Http.RegistryRoutes
