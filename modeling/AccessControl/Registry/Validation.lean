import AccessControl.Registry.Basic
import AccessControl.Definition
import AccessControl.Table

/-!
# Validating a rulebook

A definition is accepted when its parts fit together.

* The identifier is a text, and a field of the model if the fields of the model are known.
* The actions and the relationships list names; a name can be any value that can be a key.
* Every access level has a function, and a priority that is a natural number.
* Every role is registered; every action it is granted, every level of such an action and every
  relationship it holds is one that the definition declares.

What is wrong with the kind of a value somewhere inside the definition is reported as a flaw of
the definition.  Parts are looked at in the order above, the roles one by one in the order of
their declaration, and the first flaw is the one that is reported.
-/

namespace AccessControl

/-- What stops the validation of a definition: a misused value, a flaw, or an unknown role. -/
inductive Defect
  | misuse (m : Misuse)
  | flaw (f : DefinitionFlaw)
  | unknownRole (role : Value)

namespace Defect

/-- The error that a defect of a resource's definition is. -/
def toFault (resource : String) : Defect → Fault
  | misuse m => .definition resource (.misuse m)
  | flaw f => .definition resource f
  | unknownRole role => .unknownRole role

end Defect

namespace Value

/-- The misuse of asking a value for a field that it does not have. -/
def withoutField (key : String) : Value → Misuse
  | callable (.enumeration _ _) => .noMember key
  | callable (.model m) => .noClassField m.name key
  | callable .integer => .noClassField "int" key
  | v => .noField v.operandName key

/-- A field of a value that has to have it. -/
def requireField (key : String) (v : Value) : Except Misuse Value :=
  match v.field? key with
  | some w => .ok w
  | none => .error (v.withoutField key)

/-- The names that a value lists. -/
def requireNames (v : Value) : Except Misuse (List Value) :=
  match v.names? with
  | some names => .ok names
  | none => .error (.notIterable v.operandName)

/-- The entries of a map; a value that counts as false has none. -/
def requireEntries (v : Value) : Except Misuse (List (Value × Value)) :=
  if !v.truthy then .ok []
  else match v.entries? with
    | some es => .ok es
    | none => .error (v.withoutField "items")

/-- Every element can be a key. -/
def requireKeys (items : List Value) : Except Misuse Unit :=
  match unhashableItem? items with
  | some kind => .error (.unhashable kind)
  | none => .ok ()

/-- One of two parts of an entry, with a default for what counts as false. -/
def orElse (v fallback : Value) : Value :=
  if v.truthy then v else fallback

/-- The fields that instances of a model have, if they are known.  The model may be a class of
instances or itself an instance. -/
def modelFields? : Value → Option (List String)
  | callable (.model m) => if m.closed || !m.fields.isEmpty then some m.fields else none
  | record .loose fields =>
    (fields.lookup "model_fields").bind fun v =>
      v.entries?.map fun es => es.filterMap fun e => e.1.text?
  | record _ fields => some (fields.map Prod.fst)
  | _ => none

/-- What a model is called. -/
def modelName : Value → String
  | callable (.model m) => m.name
  | v => v.plain

end Value

namespace Definition

/-- The names that a part lists, as a set. -/
def nameSet (v : Value) : Except Misuse (List Value) := do
  let names ← v.requireNames
  Value.requireKeys names
  return Value.distinct names

/-- The two parts of an access level that was declared as a map or as a record. -/
def levelParts (entry : Value) : Value × Value :=
  match entry.entries? with
  | some es =>
    ((Value.find? (.text "fn") es).getD .null, (Value.find? (.text "priority") es).getD .null)
  | none => ((entry.field? "fn").getD .null, (entry.field? "priority").getD .null)

/-- A priority: a whole number that is not negative. -/
def priority? : Value → Option Nat
  | .int n => if 0 ≤ n then some n.toNat else none
  | _ => none

/-- One access level. -/
def readLevel (name entry : Value) : Except Defect AccessLevel :=
  let parts := levelParts entry
  match parts.1.callable? with
  | none => .error (.flaw (.levelNotFunction name))
  | some fn => match priority? parts.2 with
    | none => .error (.flaw (.levelPriority name))
    | some priority => .ok ⟨fn, priority⟩

/-- The access levels; a later one of the same name replaces an earlier one. -/
def readLevels (acc : List (Value × AccessLevel)) :
    List (Value × Value) → Except Defect (List (Value × AccessLevel))
  | [] => .ok acc
  | (key, entry) :: rest => do
    let level ← readLevel key.name entry
    key.name.requireKey Defect.misuse
    readLevels (Value.put key.name level acc) rest

/-- The field of the access levels. -/
def levelsOf (v : Value) : Except Defect (List (Value × AccessLevel)) :=
  match v.entries? with
  | none => .error (.flaw .levelsNotMapping)
  | some es => readLevels [] es

/-- Every name of the list can be looked up and is one of the known ones; otherwise the first that
is not is at fault. -/
def allKnown (lookUp : Value → Except Defect Unit) (known : List Value)
    (unknown : Value → DefinitionFlaw) : List Value → Except Defect Unit
  | [] => .ok ()
  | v :: rest => do
    lookUp v
    if known.any (Value.same · v) then allKnown lookUp known unknown rest
    else throw (.flaw (unknown v))

/-- The levels of every action that is granted.  The actions are a set, the levels are the keys of a
map. -/
def readPermissions (actions levels : List Value) (acc : List (Value × List Value)) :
    List (Value × Value) → Except Defect (List (Value × List Value))
  | [] => .ok acc
  | (key, listed) :: rest => do
    allKnown (Value.requireElement .misuse) actions .unknownAction [key.name]
    let names ← listed.requireNames.mapError .misuse
    allKnown (Value.requireKey .misuse) levels .unknownLevel names
    readPermissions actions levels (Value.put key.name names acc) rest

/-- The permissions and the relationships of a role's entry, given as a map or as a record. -/
def grantParts (entry : Value) : Except Misuse (Value × Value) :=
  match entry.entries? with
  | some es =>
    .ok (((Value.find? (.text "permissions") es).getD .null).orElse (.map []),
      ((Value.find? (.text "relationships") es).getD .null).orElse (.tuple []))
  | none => do
    let permissions ← entry.requireField "permissions"
    let relationships ← entry.requireField "relationships"
    return (permissions.orElse (.map []), relationships.orElse (.tuple []))

/-- What one role is granted. -/
def readGrant (actions levels relationships : List Value) (entry : Value) :
    Except Defect Grant := do
  let parts ← (grantParts entry).mapError .misuse
  let permissionEntries ← parts.1.requireEntries.mapError .misuse
  let permissions ← readPermissions actions levels [] permissionEntries
  let held ← parts.2.requireNames.mapError .misuse
  allKnown (Value.requireElement .misuse) relationships .unknownRelationship held
  return ⟨permissions, Value.distinct held⟩

/-- What every role is granted. -/
def readGrants (isRole : String → Bool) (actions levels relationships : List Value)
    (acc : List (String × Grant)) :
    List (Value × Value) → Except Defect (List (String × Grant))
  | [] => .ok acc
  | (key, entry) :: rest => do
    key.name.requireKey Defect.misuse
    match key.name.text? with
    | none => throw (.unknownRole key.name)
    | some role =>
      if isRole role then
        let grant ← readGrant actions levels relationships entry
        readGrants isRole actions levels relationships (assign role grant acc) rest
      else throw (.unknownRole key.name)

/-- The identifier, which has to be a field of the model. -/
def identifierOf (d : Definition) : Except DefinitionFlaw String :=
  match d.identifier.text? with
  | none => .error .noIdentifier
  | some identifier =>
    if identifier.isEmpty then .error .noIdentifier
    else if d.model.isNull then .ok identifier
    else match d.model.modelFields? with
      | none => .ok identifier
      | some fields =>
        if fields.contains identifier then .ok identifier
        else .error (.notField d.identifier.plain d.model.modelName)

/-- The rulebook that a definition stands for. -/
def validate (d : Definition) (isRole : String → Bool) : Except Defect Metadata := do
  let identifier ← d.identifierOf.mapError .flaw
  let actions ← (nameSet d.actions).mapError .misuse
  let relationships ← (nameSet d.relationships).mapError .misuse
  let levels ← levelsOf d.levels
  let roleEntries ← d.roles.requireEntries.mapError .misuse
  let grants ← readGrants isRole actions (levels.map Prod.fst) relationships [] roleEntries
  return ⟨identifier, actions, levels, relationships, grants⟩

end Definition

namespace Registry

/-- The resources of a role together with one more, unless it is among them. -/
def fileResource (resource : String) (held : Option (List String)) : List String :=
  let held := held.getD []
  if held.contains resource then held else held ++ [resource]

/-- Adds a resource to the index entry of a role, making the entry if there is none. -/
def indexRole (resource role : String) (index : List (String × List String)) :
    List (String × List String) :=
  upsert role (fileResource resource) index

/-- Adds a resource to the index entries of the roles that its rulebook names. -/
def indexResource (resource : String) (roles : List String)
    (index : List (String × List String)) : List (String × List String) :=
  roles.foldl (fun acc role => indexRole resource role acc) index

/-- Declares a resource, which must be new. -/
def declare (r : Registry) (resource : String) : Except Fault Registry :=
  if r.hasResource resource then .error (.definition resource .redeclared)
  else .ok { r with resources := assign resource none r.resources }

/-- Defines a resource, which must not be defined yet. -/
def define (r : Registry) (resource : String) (v : Value) : Except Fault Registry :=
  if (r.metadata? resource).isSome then .error (.definition resource .redefined)
  else match Definition.ofValue? v with
    | none => .error (.definition resource .notDefinition)
    | some d =>
      match d.validate r.hasRole with
      | .error defect => .error (defect.toFault resource)
      | .ok m => .ok { r with
          resources := assign resource (some m) r.resources
          index := indexResource resource (m.grants.map Prod.fst) r.index }

/-- Declares a resource when there is no definition, and defines it otherwise. -/
def addResource (r : Registry) (resource definition : Value) : Except Fault Registry := do
  let name ← requireResource resource
  if definition.isNull then r.declare name else r.define name definition

end Registry

end AccessControl
