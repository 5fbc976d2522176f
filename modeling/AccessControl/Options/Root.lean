import AccessControl.Options.Field
import AccessControl.Fault
import AccessControl.Table

/-!
# Root options

The root of an application declares every role with its definition, the default role, the names
of all resources, how a request becomes a context, the global checks, and optionally whether and
where decisions are recorded and how denials become errors.

Names may be members of enumerations; they are replaced by the plain names behind them.  The
resources may be given in any form that lists names.  A global check may be given as a map with
the keys `name`, `message` and `fn`.
-/

namespace AccessControl

/-- The checked options of an application root. -/
structure RootOptions where
  /-- Role names with their definitions, in the order of declaration. -/
  roles : List (String × Value)
  defaultRole : String
  resources : List String
  resolver : Callable
  /-- Every element is a record of the shape of a check. -/
  checks : List Value
  logging : Option Bool
  sink : Option Callable
  authnRefusal : Option Callable
  authzRefusal : Option Callable

namespace RootOptions

/-- A map with plain names as keys; a later entry replaces the value of an earlier one. -/
def plainKeys (acc : List (Value × Value)) :
    List (Value × Value) → Except Misuse (List (Value × Value))
  | [] => .ok acc
  | (k, v) :: rest =>
    match k.name.unhashable? with
    | some kind => .error (.unhashable kind)
    | none => plainKeys (Value.put k.name v acc) rest

/-- The roles: a map from texts that has at least one entry. -/
def readRoles (entries : List (Value × Value)) : Checked (List (String × Value)) :=
  let keys := entries.map fun e =>
    match Field.text [.key "roles", .ofKey e.1, .key "[key]"] e.1 with
    | .ok s => .ok (s, e.2)
    | .error issues => .error issues
  match Checked.all keys with
  | .error issues => .error issues
  | .ok [] => Checked.issue [.key "roles"] .emptyMap
  | .ok es => .ok (assignAll [] es)

/-- The field of the roles. -/
def rolesField : Option Value → Except Misuse (Checked (List (String × Value)))
  | none => .ok (Checked.issue [.key "roles"] .missing)
  | some v =>
    match v.entries? with
    | some es => (plainKeys [] es).map readRoles
    | none => .ok (Checked.issue [.key "roles"] .notMap)

/-- The field of the resources. -/
def resourcesField (v : Value) : Checked (List String) :=
  if v.isNull then Checked.issue [.key "resources"] .notList
  else match v.names? with
    | some names => Checked.each (fun n => Field.text [.key "resources", .index n]) 0 names
    | none =>
      Checked.issue [.key "resources"]
        (.refused "must be an Enum, a mapping or an iterable of resource names")

/-- The record of a check. -/
def checkRecord (name message fn : Value) : Value :=
  .record .check [("name", name), ("message", message), ("fn", fn)]

/-- A check given as a map or as a record. -/
def readCheck (v : Value) : Checked Value :=
  match v.entries? with
  | some es =>
    let part (key : String) := (Value.find? (.text key) es).getD .null
    .ok (checkRecord (part "name") (part "message") (part "fn"))
  | none =>
    match v with
    | .record .check fields => .ok (.record .check fields)
    | v =>
      Checked.issue [.key "global_checks"] (.refused ("expected GlobalCheck, got " ++ v.typeName))

/-- The checks up to the first that is none. -/
def readChecks : List Value → Checked (List Value)
  | [] => .ok []
  | v :: rest =>
    match readCheck v with
    | .ok check => (readChecks rest).map (check :: ·)
    | .error issues => .error issues

/-- The field of the global checks. -/
def checksField : Option Value → Except Misuse (Checked (List Value))
  | none => .ok (.ok [])
  | some v =>
    if v.isNull || v.text?.isSome || v.entries?.isSome then
      .ok (Checked.issue [.key "global_checks"] (.refused "must be a list of global checks"))
    else match v.items? with
      | some items => .ok (readChecks items)
      | none => .error (.notIterable v.operandName)

/-- Checks the fields of an option record. -/
def ofEntries (entries : List (Value × Value)) : Except Misuse (Checked RootOptions) := do
  let field (key : String) := Value.find? (.text key) entries
  let roles ← rolesField (field "roles")
  let checks ← checksField (field "global_checks")
  let defaultRole :=
    Field.needed [.key "default"] (fun v => Field.nonemptyText [.key "default"] v.name)
      (field "default")
  let resources := Field.needed [.key "resources"] resourcesField (field "resources")
  let resolver :=
    Field.needed [.key "context_resolver"] (Field.function [.key "context_resolver"])
      (field "context_resolver")
  let logging := Field.flag? [.key "log"] (field "log")
  let sink := Field.function? [.key "logger"] (field "logger")
  let authn := Field.function? [.key "authn_exception"] (field "authn_exception")
  let authz := Field.function? [.key "authz_exception"] (field "authz_exception")
  let options := Checked.also (roles.map RootOptions.mk) defaultRole
  let options := Checked.also (Checked.also options resources) resolver
  let options := Checked.also (Checked.also options checks) logging
  return Checked.also (Checked.also (Checked.also options sink) authn) authz

/-- Reads the options of an application root from any value. -/
def parse (v : Value) : Except Fault RootOptions :=
  let read (entries : List (Value × Value)) : Except Fault RootOptions :=
    match ofEntries entries with
    | .error m => .error (.misuse m)
    | .ok (.error issues) => .error (.config (.issues issues))
    | .ok (.ok options) => .ok options
  match v with
  | .record .rootOptions fields => read (fields.map fun f => (.text f.1, f.2))
  | v =>
    match v.entries? with
    | some entries => read entries
    | none => .error (.config (.notMapping "Root options" "AuthZRootOptions"))

/-- Something that can be called, or nothing, as a value. -/
def hook (f : Option Callable) : Value :=
  (f.map Value.callable).getD .null

/-- The options as a record. -/
def toValue (o : RootOptions) : Value :=
  .record .rootOptions
    [("roles", .map (o.roles.map fun r => (.text r.1, r.2))),
      ("default", .text o.defaultRole),
      ("resources", .list (o.resources.map .text)),
      ("context_resolver", .callable o.resolver),
      ("global_checks", .list o.checks),
      ("log", (o.logging.map Value.bool).getD .null),
      ("logger", hook o.sink),
      ("authn_exception", hook o.authnRefusal),
      ("authz_exception", hook o.authzRefusal)]

end RootOptions

end AccessControl
