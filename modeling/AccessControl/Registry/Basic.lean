import AccessControl.Value.Equality
import AccessControl.Value.Text
import AccessControl.Text.Blank
import AccessControl.Fault

/-!
# The registry

A registry holds what an engine decides by: the roles with their definitions, the resources with
their rulebooks, the global checks, and the hooks that record decisions and turn denials into
errors.  A resource is *declared* first, which leaves a place for its rulebook, and *defined*
later; a rulebook that is in place never changes.

Beside the rulebooks the registry keeps an index from every role to the resources that grant it
something, so that what a role holds can be read off without a search.

A rulebook in the registry has been validated: `Metadata` is what is left of a definition when
its names are plain, its actions and relationships are sets and its levels can be called.
-/

namespace AccessControl

/-- A predicate that decides whether a grant applies to an instance.  The priority is a
description; it plays no part in decisions. -/
structure AccessLevel where
  fn : Callable
  priority : Nat

/-- What a role is granted on a resource: for every action the levels, in the order in which
they are tried, and a set of relationships. -/
structure Grant where
  permissions : List (Value × List Value)
  relationships : List Value

/-- A validated rulebook. -/
structure Metadata where
  /-- The field of an instance that identifies it. -/
  identifier : String
  actions : List Value
  levels : List (Value × AccessLevel)
  relationships : List Value
  grants : List (String × Grant)

/-- A predicate on contexts that every decision begins with. -/
structure GlobalCheck where
  /-- The check as it was declared. -/
  declared : Value
  name : Value
  message : Value
  fn : Callable

/-- What a role is granted, resource by resource. -/
structure RoleInfo where
  role : String
  definition : Value
  permissions : List (String × Grant)

/-- Roles, resources, checks and hooks of one engine. -/
structure Registry where
  /-- Role names with their definitions, in the order of registration. -/
  roles : List (String × Value)
  /-- Resource names in the order of declaration, with the rulebooks of those defined. -/
  resources : List (String × Option Metadata)
  /-- For every role the resources whose rulebook has an entry for it. -/
  index : List (String × List String)
  defaultRole : Option String
  checks : List GlobalCheck
  logging : Bool
  sink : Callable
  authnRefusal : Callable
  authzRefusal : Callable
  resolver : Option Callable

namespace Registry

/-- A registry without roles and resources.  Decisions are not recorded, and denials are the
engine's own. -/
def empty : Registry where
  roles := []
  resources := []
  index := []
  defaultRole := none
  checks := []
  logging := false
  sink := .sink .engineLog
  authnRefusal := .refusal .unauthenticated
  authzRefusal := .refusal .unauthorized
  resolver := none

/-! ## 1. Arguments -/

/-- The plain name behind a value; it must not be blank. -/
def requireName (what : String) (v : Value) : Except Fault String :=
  match v.name.text? with
  | some s => if Text.blank s then .error (.config (.blank what)) else .ok s
  | none => .error (.config (.blank what))

/-- The name of a role. -/
def requireRole : Value → Except Fault String :=
  requireName "Role identifier"

/-- The name of a resource. -/
def requireResource : Value → Except Fault String :=
  requireName "Resource identifier"

/-- Something that can be called. -/
def requireFunction (what : String) (v : Value) : Except Fault Callable :=
  match v.callable? with
  | some f => .ok f
  | none => .error (.config (.notFunction what))

theorem requireName_text {what s : String} (h : Text.blank s = false) :
    requireName what (.text s) = .ok s := by
  simp [requireName, h]

/-! ## 2. What is in the registry -/

/-- The role is registered. -/
def hasRole (r : Registry) (role : String) : Bool :=
  (r.roles.lookup role).isSome

/-- The resource is declared, whether or not it is defined. -/
def hasResource (r : Registry) (resource : String) : Bool :=
  (r.resources.lookup resource).isSome

/-- The rulebook of a resource, if it is defined. -/
def metadata? (r : Registry) (resource : String) : Option Metadata :=
  (r.resources.lookup resource).join

/-- The names of the roles. -/
def roleNames (r : Registry) : List String :=
  r.roles.map Prod.fst

/-- The names of the resources. -/
def resourceNames (r : Registry) : List String :=
  r.resources.map Prod.fst

/-- The definition of a role, or nothing. -/
def roleDefinition (r : Registry) (role : Value) : Except Fault Value := do
  role.name.requireKey Fault.misuse
  return (role.name.text?.bind fun s => r.roles.lookup s).getD .null

/-- Whether a resource is declared. -/
def isDeclared (r : Registry) (resource : Value) : Except Fault Bool := do
  resource.name.requireKey Fault.misuse
  return (resource.name.text?.map r.hasResource).getD false

/-- The rulebook of a resource, or nothing if it is not defined. -/
def resourceDefinition (r : Registry) (resource : Value) : Except Fault (Option Metadata) := do
  let name ← requireResource resource
  return r.metadata? name

/-- The grants of a role on some resources, as far as their rulebooks have an entry for it. -/
def grantsOf (r : Registry) (role : String) (resources : List String) :
    List (String × Grant) :=
  resources.filterMap fun resource =>
    ((r.metadata? resource).bind fun m => m.grants.lookup role).map fun g => (resource, g)

/-- The resources indexed under a role, in order. -/
def indexed (r : Registry) (role : String) : List String :=
  ((r.index.lookup role).getD []).mergeSort fun a b => decide (a ≤ b)

/-- Everything that a role is granted, by resource in order; nothing if it is not registered. -/
def roleInfo (r : Registry) (role : Value) : Except Fault (Option RoleInfo) := do
  let name ← requireRole role
  return (r.roles.lookup name).map fun definition =>
    ⟨name, definition, r.grantsOf name (r.indexed name)⟩

/-! ## 3. Hooks, checks and roles -/

/-- Turns the recording of decisions on or off. -/
def setLogging (r : Registry) : Value → Except Fault Registry
  | .bool b => .ok { r with logging := b }
  | _ => .error (.config .loggingFlag)

/-- Sets where records go. -/
def setSink (r : Registry) (v : Value) : Except Fault Registry := do
  let f ← requireFunction "Logger" v
  return { r with sink := f }

/-- Sets how a request without a valid context is refused. -/
def setAuthnRefusal (r : Registry) (v : Value) : Except Fault Registry := do
  let f ← requireFunction "Authentication exception function" v
  return { r with authnRefusal := f }

/-- Sets how a denial is refused. -/
def setAuthzRefusal (r : Registry) (v : Value) : Except Fault Registry := do
  let f ← requireFunction "Authorization exception function" v
  return { r with authzRefusal := f }

/-- A check from anything that has a name, a message and a function. -/
def readCheck (v : Value) : Except Fault GlobalCheck := do
  let part (key : String) := (v.field? key).getD .null
  let _ ← requireName "Global check name" (part "name")
  let fn ← requireFunction "Global check function" (part "fn")
  let _ ← requireName "Global check message" (part "message")
  return ⟨v, part "name", part "message", fn⟩

/-- The elements of a list or of a tuple. -/
def listElements? : Value → Option (List Value)
  | .list items => some items
  | .tuple items => some items
  | _ => none

/-- Replaces the global checks. -/
def setChecks (r : Registry) (v : Value) : Except Fault Registry :=
  match listElements? v with
  | none => .error (.config .checksNotList)
  | some items => do
    let checks ← items.mapM readCheck
    return { r with checks := checks }

/-- Registers a role.  A role that is registered already keeps its definition. -/
def addRole (r : Registry) (role definition : Value) : Except Fault Registry := do
  let name ← requireRole role
  if definition.isNull then throw (.config .noRoleDefinition)
  if r.hasRole name then return r
  return { r with
    roles := r.roles ++ [(name, definition)]
    index := r.index ++ [(name, [])] }

/-- Sets the default role.  Once it is set, only force changes it. -/
def setDefaultRole (r : Registry) (role : Value) (force : Bool) : Except Fault Registry := do
  let name ← requireRole role
  if !r.hasRole name then throw (.unknownRole (.text name))
  if r.defaultRole.isNone || force then return { r with defaultRole := some name }
  return r

end Registry

end AccessControl
