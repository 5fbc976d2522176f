import AccessControl.Options.Field
import AccessControl.Definition

/-!
# Feature options

A feature of an application supplies the rulebooks of the resources that it owns: a list of
entries, each with the name of a resource and its definition.  A definition may be given as a map
of its parts.
-/

namespace AccessControl

/-- One resource among the options of a feature. -/
structure FeatureEntry where
  name : String
  definition : Definition

/-- The checked options of a feature. -/
structure FeatureOptions where
  resources : List FeatureEntry

namespace FeatureOptions

/-- The definition of an entry. -/
def readDefinition (place : List Place) (v : Value) : Checked Definition :=
  match v.entries? with
  | some es =>
    match Definition.ofEntries es with
    | .ok d => .ok d
    | .error reason => Checked.issue place (.refused reason)
  | none =>
    match Definition.ofValue? v with
    | some d => .ok d
    | none =>
      Checked.issue place (.refused ("expected ResourceDefinition, got " ++ v.typeName))

/-- The two fields of an entry. -/
def readFields (place : List Place) (field : String → Option Value) : Checked FeatureEntry :=
  let name := Field.needed (place ++ [.key "name"])
    (fun v => Field.nonemptyText (place ++ [.key "name"]) v.name) (field "name")
  let definition := Field.needed (place ++ [.key "definition"])
    (readDefinition (place ++ [.key "definition"])) (field "definition")
  Checked.also (name.map FeatureEntry.mk) definition

/-- An entry, given as a map or as a record. -/
def readEntry (place : List Place) (v : Value) : Checked FeatureEntry :=
  match v.entries? with
  | some es => readFields place fun key => Value.find? (.text key) es
  | none =>
    match v with
    | .record .entry fields => readFields place fun key => fields.lookup key
    | _ => Checked.issue place (.notRecord "ResourceEntry")

/-- The elements of a collection that counts as a list: neither a map, nor text, nor bytes. -/
def listItems? : Value → Option (List Value)
  | .bytes _ => none
  | v => if v.text?.isSome || v.entries?.isSome then none else v.items?

/-- The field of the resources. -/
def resourcesField (v : Value) : Checked (List FeatureEntry) :=
  match listItems? v with
  | some items => Checked.each (fun n => readEntry [.key "resources", .index n]) 0 items
  | none => Checked.issue [.key "resources"] .notList

/-- Checks the fields of an option record. -/
def ofFields (field : String → Option Value) : Checked FeatureOptions :=
  (Field.needed [.key "resources"] resourcesField (field "resources")).map FeatureOptions.mk

/-- Reads the options of a feature from any value. -/
def parse (v : Value) : Except Fault FeatureOptions :=
  let read (field : String → Option Value) : Except Fault FeatureOptions :=
    match ofFields field with
    | .error issues => .error (.config (.issues issues))
    | .ok options => .ok options
  match v with
  | .record .featureOptions fields => read fun key => fields.lookup key
  | v =>
    match v.entries? with
    | some entries => read fun key => Value.find? (.text key) entries
    | none => .error (.config (.notMapping "Feature options" "AuthZFeatureOptions"))

/-- The options as a record. -/
def toValue (o : FeatureOptions) : Value :=
  .record .featureOptions
    [("resources", .list (o.resources.map fun e =>
      .record .entry [("name", .text e.name), ("definition", e.definition.toValue)]))]

end FeatureOptions

end AccessControl
