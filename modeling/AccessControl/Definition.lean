import AccessControl.Value.Equality
import AccessControl.Value.Text
import AccessControl.Fault

/-!
# Definitions of resources

The rulebook of a resource, as it is declared.  Nothing about it is known yet: the actions, the
access levels, the relationships and the roles are values of any kind, and so is the model, the
class of the instances of the resource.

When a definition is given as a map, its keys are the names of its parts.  The parts without
which there is no definition are the identifier, the actions and the access levels.
-/

namespace AccessControl

/-- A rulebook as it is declared. -/
structure Definition where
  identifier : Value
  actions : Value
  levels : Value
  relationships : Value
  roles : Value
  model : Value

namespace Definition

/-- The names of the parts, in their order. -/
def partNames : List String :=
  ["identifier", "actions", "access_levels", "relationships", "roles", "model"]

/-- The parts that have to be given. -/
def neededParts : List String :=
  ["identifier", "actions", "access_levels"]

/-- A definition from its parts; what is not given is empty. -/
def ofParts (part? : String → Option Value) : Definition where
  identifier := (part? "identifier").getD .null
  actions := (part? "actions").getD .null
  levels := (part? "access_levels").getD .null
  relationships := (part? "relationships").getD (.tuple [])
  roles := (part? "roles").getD (.map [])
  model := (part? "model").getD .null

/-- The definition that a record is. -/
def ofValue? : Value → Option Definition
  | .record .definition fields => some (ofParts fun part => fields.lookup part)
  | _ => none

/-- The definition as a record. -/
def toValue (d : Definition) : Value :=
  .record .definition
    [("identifier", d.identifier), ("actions", d.actions), ("access_levels", d.levels),
      ("relationships", d.relationships), ("roles", d.roles), ("model", d.model)]

/-- How a definition is made from its parts. -/
def constructorName : String := "ResourceDefinition.__init__"

/-- Reads a definition from the entries of a map, or says why it is none. -/
def ofEntries (entries : List (Value × Value)) : Except String Definition :=
  if entries.any fun e => e.1.text?.isNone then .error "keywords must be strings"
  else
    let keys := entries.map fun e => e.1.text?.getD ""
    match keys.find? fun key => !partNames.contains key with
    | some key => .error (Call.unknownArgument constructorName key)
    | none =>
      let missing := neededParts.filter fun part => !keys.contains part
      if missing.isEmpty then .ok (ofParts fun part => Value.find? (.text part) entries)
      else .error (Call.missingArguments constructorName missing)

end Definition

end AccessControl
