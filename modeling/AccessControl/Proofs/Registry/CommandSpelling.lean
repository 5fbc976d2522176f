import AccessControl.Proofs.Registry.Spelling
import AccessControl.Proofs.Registry.Startup

/-!
# How options and commands spell names

The options of a root hold names as the keys of the roles, as the default role and in the list of
the resources; those of a feature hold the name of every resource, and its definition.  Commands
and the questions about what is registered are given names alone.  Here all of these are spelled
out, and nothing that a registry does with them changes.

* Root options are read in the same way without any condition, `fromOptions_spellOut`.  The list of
  the resources may even be a single member, because every name in it is read as a text once more.
* Reading the options of a feature does not look into the definitions, so what is read from the
  options spelled out is what is read, spelled out, `FeatureOptions.parse_spellOut`.
* A command does the same once it is spelled out, `apply_spellOut`, if no list of names in a
  definition that it adds is a single member.
-/

namespace AccessControl

/-- Reading elements that are replaced gives the replacements of what is read, if it does so for
every element. -/
theorem Checked.each_map {α β : Type} {read : Nat → α → Checked β} {f : α → α} {g : β → β}
    (h : ∀ n a, read n (f a) = (read n a).map g) (start : Nat) (items : List α) :
    each read start (items.map f) = (each read start items).map (List.map g) := by
  induction items generalizing start with
  | nil => rfl
  | cons a rest ih =>
    rw [List.map_cons, each, each, h, ih]
    cases read start a with
    | error xs => cases each read (start + 1) rest <;> rfl
    | ok b => cases each read (start + 1) rest <;> rfl

/-! ## 1. The options of a feature -/

/-- The entry with the names in its definition spelled out. -/
def FeatureEntry.spellOut (e : FeatureEntry) : FeatureEntry :=
  { e with definition := e.definition.spellOut }

namespace FeatureOptions

/-- One part of an entry, spelled out. -/
def spellOutEntryPart (part : String) (v : Value) : Value :=
  if part = "name" then v.spellOut
  else if part = "definition" then Definition.spellOutValue v
  else v

/-- An entry, spelled out. -/
def spellOutEntry (v : Value) : Value :=
  v.mapParts spellOutEntryPart

/-- One part of the options, spelled out. -/
def spellOutPart (part : String) (v : Value) : Value :=
  if part = "resources" then v.mapElements spellOutEntry else v

/-- The options of a feature, spelled out. -/
def spellOut (v : Value) : Value :=
  v.mapParts spellOutPart

theorem readDefinition_spellOutValue (place : List Place) (v : Value) :
    readDefinition place (Definition.spellOutValue v) =
      (readDefinition place v).map Definition.spellOut := by
  rw [readDefinition, readDefinition, Definition.ofValue?_spellOutValue, Definition.spellOutValue,
    Value.entries?_mapParts, Value.typeName_mapParts]
  cases v.entries? with
  | none =>
    cases Definition.ofValue? v with
    | none => rfl
    | some d => rfl
  | some es =>
    simp only [Option.map_some, Definition.ofEntries_spellOut]
    cases Definition.ofEntries es with
    | error reason => rfl
    | ok d => rfl

theorem readFields_spellOut (place : List Place) (field : String → Option Value) :
    readFields place (fun part => (field part).map (spellOutEntryPart part)) =
      (readFields place field).map FeatureEntry.spellOut := by
  have hname (place : List Place) :
      Field.needed place (fun v => Field.nonemptyText place v.name)
          ((field "name").map (spellOutEntryPart "name")) =
        Field.needed place (fun v => Field.nonemptyText place v.name) (field "name") := by
    cases field "name" with
    | none => rfl
    | some v => exact congrArg (Field.nonemptyText place) (Value.name_spellOut v)
  have hdefinition (place : List Place) :
      Field.needed place (readDefinition place)
          ((field "definition").map (spellOutEntryPart "definition")) =
        (Field.needed place (readDefinition place) (field "definition")).map
          Definition.spellOut := by
    cases field "definition" with
    | none => rfl
    | some v => exact readDefinition_spellOutValue place v
  simp only [readFields, hname, hdefinition]
  cases Field.needed (place ++ [.key "name"])
      (fun v => Field.nonemptyText (place ++ [.key "name"]) v.name) (field "name") with
  | error xs =>
    cases Field.needed (place ++ [.key "definition"])
        (readDefinition (place ++ [.key "definition"])) (field "definition") <;> rfl
  | ok name =>
    cases Field.needed (place ++ [.key "definition"])
        (readDefinition (place ++ [.key "definition"])) (field "definition") <;> rfl

theorem readEntry_spellOutEntry (place : List Place) (v : Value) :
    readEntry place (spellOutEntry v) = (readEntry place v).map FeatureEntry.spellOut := by
  have hentries (es : List (Value × Value)) :
      readFields place (fun key => Value.find? (.text key) (es.map (Value.mapPart
          spellOutEntryPart))) =
        (readFields place fun key => Value.find? (.text key) es).map FeatureEntry.spellOut := by
    rw [funext fun key => Value.find?_mapPart spellOutEntryPart key es]
    exact readFields_spellOut place _
  cases v with
  | map es => exact hentries es
  | view es => exact hentries es
  | record shape fields =>
    cases shape with
    | entry =>
      have hfields := funext fun part => Value.lookup_map_part spellOutEntryPart part fields
      have hread (fields : List (String × Value)) : readEntry place (.record .entry fields) =
        readFields place fun key => fields.lookup key := rfl
      rw [spellOutEntry, Value.mapParts, hread, hread, hfields]
      exact readFields_spellOut place _
    | _ => rfl
  | _ => rfl

theorem listItems?_mapElements (v : Value) :
    listItems? (v.mapElements spellOutEntry) = (listItems? v).map (List.map spellOutEntry) := by
  cases v with
  | callable f =>
    cases f with
    | enumeration e members =>
      -- members of an enumeration are no entries, and they are left as they are
      have hmembers (ms : List (String × Value)) :
          (ms.map fun m => Value.member e m.1 m.2).map spellOutEntry =
            ms.map fun m => Value.member e m.1 m.2 := by
        rw [List.map_map]
        rfl
      exact congrArg some (hmembers _).symm
    | _ => rfl
  | member e n w => cases w <;> rfl
  | _ => rfl

theorem resourcesField_mapElements (v : Value) :
    resourcesField (v.mapElements spellOutEntry) =
      (resourcesField v).map (List.map FeatureEntry.spellOut) := by
  rw [resourcesField, resourcesField, listItems?_mapElements]
  cases listItems? v with
  | none => rfl
  | some items => exact Checked.each_map (fun n a => readEntry_spellOutEntry _ a) 0 items

/-- The checked options with all names in the definitions spelled out. -/
def spelledOut (o : FeatureOptions) : FeatureOptions :=
  ⟨o.resources.map FeatureEntry.spellOut⟩

theorem ofFields_spellOut (field : String → Option Value) :
    ofFields (fun part => (field part).map (spellOutPart part)) =
      (ofFields field).map spelledOut := by
  rw [ofFields, ofFields]
  cases field "resources" with
  | none => rfl
  | some v =>
    have hfield : resourcesField (spellOutPart "resources" v) =
        (resourcesField v).map (List.map FeatureEntry.spellOut) := resourcesField_mapElements v
    simp only [Option.map_some, Field.needed, hfield]
    cases resourcesField v <;> rfl

/-- Options that are spelled out are read as the options spelled out. -/
theorem parse_spellOut (v : Value) : parse (spellOut v) = (parse v).map spelledOut := by
  have hjudged (field : String → Option Value) :
      ((ofFields field).map spelledOut).mapError (fun found => Fault.config (.issues found)) =
        ((ofFields field).mapError fun found => Fault.config (.issues found)).map spelledOut := by
    cases ofFields field <;> rfl
  have hentries (v : Value) (es : List (Value × Value)) (hv : v.entries? = some es) :
      parse (spellOut v) = (parse v).map spelledOut := by
    have hspelled : (spellOut v).entries? = some (es.map (Value.mapPart spellOutPart)) := by
      rw [spellOut, Value.entries?_mapParts, hv]
      rfl
    rw [parse_of_entries? hspelled, parse_of_entries? hv,
      funext fun key => Value.find?_mapPart spellOutPart key es, ofFields_spellOut, hjudged]
  cases v with
  | map es => exact hentries _ es rfl
  | view es => exact hentries _ es rfl
  | record shape fields =>
    cases shape with
    | featureOptions =>
      have hparse (fields : List (String × Value)) : parse (.record .featureOptions fields) =
          (ofFields fun key => fields.lookup key).mapError fun found =>
            .config (.issues found) := by
        simp only [parse]
        cases ofFields fun key => fields.lookup key <;> rfl
      rw [spellOut, Value.mapParts, hparse, hparse,
        funext fun key => Value.lookup_map_part spellOutPart key fields, ofFields_spellOut, hjudged]
    | _ => rfl
  | _ => rfl

end FeatureOptions

/-! ## 2. The options of a root -/

namespace RootOptions

/-- One part of the options, spelled out. -/
def spellOutPart (part : String) (v : Value) : Value :=
  if part = "roles" then v.spellOutKeys
  else if part = "default" then v.spellOut
  else if part = "resources" then v.spellOutNames
  else v

/-- The options of a root, spelled out. -/
def spellOut (v : Value) : Value :=
  v.mapParts spellOutPart

theorem plainKeys_spellOutKeys (acc entries : List (Value × Value)) :
    plainKeys acc (entries.map fun e => (e.1.spellOut, e.2)) = plainKeys acc entries := by
  induction entries generalizing acc with
  | nil => rfl
  | cons first rest ih => simp only [List.map_cons, plainKeys, Value.name_spellOut, ih]

theorem rolesField_spellOut (field : Option Value) :
    rolesField (field.map (spellOutPart "roles")) = rolesField field := by
  cases field with
  | none => rfl
  | some v =>
    have hentries : (spellOutPart "roles" v).entries? =
        v.entries?.map (List.map fun e => (e.1.spellOut, e.2)) := Value.entries?_mapEntries _ v
    rw [Option.map_some, rolesField, rolesField, hentries]
    cases v.entries? with
    | none => rfl
    | some es => simp only [Option.map_some, plainKeys_spellOutKeys]

/-- The names of the resources are read as texts, so here even a single member is one. -/
theorem resourcesField_spellOutNames (v : Value) :
    resourcesField v.spellOutNames = resourcesField v := by
  by_cases hlone : v.IsLone
  · obtain ⟨e, n, s, rfl⟩ := hlone
    rfl
  · have hnull : v.spellOutNames.isNull = v.isNull := by
      cases v with
      | member e n w => cases w <;> rfl
      | _ => rfl
    rw [resourcesField, resourcesField, hnull, Value.names?_spellOutNames hlone]

theorem ofEntries_spellOut (entries : List (Value × Value)) :
    ofEntries (entries.map (Value.mapPart spellOutPart)) = ofEntries entries := by
  have hfind (key : String) : Value.find? (.text key) (entries.map (Value.mapPart spellOutPart)) =
      (Value.find? (.text key) entries).map (spellOutPart key) :=
    Value.find?_mapPart spellOutPart key entries
  have hother (key : String) (h : spellOutPart key = id) :
      Value.find? (.text key) (entries.map (Value.mapPart spellOutPart)) =
        Value.find? (.text key) entries := by
    rw [hfind, h, Option.map_id, id]
  have hdefault : Field.needed [.key "default"]
        (fun v => Field.nonemptyText [.key "default"] v.name)
        (Value.find? (.text "default") (entries.map (Value.mapPart spellOutPart))) =
      Field.needed [.key "default"] (fun v => Field.nonemptyText [.key "default"] v.name)
        (Value.find? (.text "default") entries) := by
    rw [hfind]
    cases Value.find? (.text "default") entries with
    | none => rfl
    | some v => exact congrArg (Field.nonemptyText _) (Value.name_spellOut v)
  have hresources : Field.needed [.key "resources"] resourcesField
        (Value.find? (.text "resources") (entries.map (Value.mapPart spellOutPart))) =
      Field.needed [.key "resources"] resourcesField
        (Value.find? (.text "resources") entries) := by
    rw [hfind]
    cases Value.find? (.text "resources") entries with
    | none => rfl
    | some v => exact resourcesField_spellOutNames v
  simp only [ofEntries, hdefault, hresources, hfind "roles", rolesField_spellOut,
    hother "global_checks" rfl, hother "context_resolver" rfl, hother "log" rfl,
    hother "logger" rfl, hother "authn_exception" rfl, hother "authz_exception" rfl]

/-- **The options of a root are read by plain names**, however these are spelled. -/
theorem parse_spellOut (v : Value) : parse (spellOut v) = parse v := by
  have hmap (es : List (Value × Value)) :
      parse (.map (es.map (Value.mapPart spellOutPart))) = parse (.map es) := by
    simp only [parse, Value.entries?, ofEntries_spellOut]
  cases v with
  | map es => exact hmap es
  | view es => exact hmap es
  | record shape fields =>
    cases shape with
    | rootOptions =>
      have hentries : ((fields.map fun p => (p.1, spellOutPart p.1 p.2)).map
            fun f => (Value.text f.1, f.2)) =
          (fields.map fun f => (Value.text f.1, f.2)).map (Value.mapPart spellOutPart) := by
        rw [List.map_map, List.map_map]
        rfl
      have hfields := hmap (fields.map fun f => (Value.text f.1, f.2))
      rw [← hentries] at hfields
      exact hfields
    | _ => rfl
  | _ => rfl

end RootOptions

namespace Registry

variable {r r' : Registry}

theorem fromOptions_spellOut (v : Value) :
    fromOptions (RootOptions.spellOut v) = fromOptions v := by
  rw [fromOptions, fromOptions, RootOptions.parse_spellOut]

/-! ## 3. Names that are asked for -/

theorem requireName_spellOut (what : String) (v : Value) :
    requireName what v.spellOut = requireName what v := by
  rw [requireName, requireName, Value.name_spellOut]

theorem roleDefinition_spellOut (r : Registry) (role : Value) :
    r.roleDefinition role.spellOut = r.roleDefinition role := by
  rw [roleDefinition, roleDefinition, Value.name_spellOut]

theorem isDeclared_spellOut (r : Registry) (resource : Value) :
    r.isDeclared resource.spellOut = r.isDeclared resource := by
  rw [isDeclared, isDeclared, Value.name_spellOut]

theorem resourceDefinition_spellOut (r : Registry) (resource : Value) :
    r.resourceDefinition resource.spellOut = r.resourceDefinition resource := by
  rw [resourceDefinition, resourceDefinition, requireResource, requireName_spellOut]

theorem roleInfo_spellOut (r : Registry) (role : Value) :
    r.roleInfo role.spellOut = r.roleInfo role := by
  rw [roleInfo, roleInfo, requireRole, requireName_spellOut]

/-! ## 4. Commands -/

/-- The definition of a resource, if the value is one, satisfies the condition. -/
def DefinedBy (C : Definition → Prop) (v : Value) : Prop :=
  ∀ d, Definition.ofValue? v = some d → C d

namespace Command

/-- The command with all its names spelled out. -/
def spellOut : Command → Command
  | addRole role definition => addRole role.spellOut definition
  | setDefaultRole role force => setDefaultRole role.spellOut force
  | addResource resource definition =>
    addResource resource.spellOut (Definition.spellOutValue definition)
  | initResources options => initResources (FeatureOptions.spellOut options)
  | c => c

/-- No list of names in a definition that the command adds is a single member. -/
def Listed : Command → Prop :=
  EveryDefinition (DefinedBy Definition.Listed)

/-- Every name in a definition that the command adds is a text in one of its two spellings. -/
def InTexts : Command → Prop :=
  EveryDefinition (DefinedBy Definition.InTexts)

end Command

theorem additionEvents_spellOutValue (resource : String) (definition : Value) :
    additionEvents resource (Definition.spellOutValue definition) =
      additionEvents resource definition := by
  rw [additionEvents, additionEvents, Definition.spellOutValue, Value.isNull_mapParts]

theorem addResource_spellOut (r : Registry) (resource : Value) {definition : Value}
    (h : DefinedBy Definition.Listed definition) :
    r.addResource resource.spellOut (Definition.spellOutValue definition) =
      r.addResource resource definition := by
  have hnull : (Definition.spellOutValue definition).isNull = definition.isNull :=
    Value.isNull_mapParts _ _
  have hdefine (name : String) :
      r.define name (Definition.spellOutValue definition) = r.define name definition := by
    rw [define, define, Definition.ofValue?_spellOutValue]
    cases hd : Definition.ofValue? definition with
    | none => rfl
    | some d => simp only [Option.map_some, Definition.validate_spellOut (h d hd)]
  simp only [addResource, requireResource, requireName_spellOut, hnull, hdefine]

theorem defineAll_spellOut (r : Registry) {entries : List FeatureEntry}
    (h : ∀ e ∈ entries, DefinedBy Definition.Listed e.definition.toValue) :
    r.defineAll (entries.map FeatureEntry.spellOut) = r.defineAll entries := by
  induction entries generalizing r with
  | nil => rfl
  | cons e rest ih =>
    rw [List.forall_mem_cons] at h
    have hadd := addResource_spellOut r (.text e.name) h.1
    have hevents := additionEvents_spellOutValue e.name e.definition.toValue
    simp only [List.map_cons, defineAll, FeatureEntry.spellOut, Definition.toValue_spellOut,
      hevents, ih _ h.2]
    rw [Value.spellOut_text] at hadd
    rw [hadd]

/-- **A command does not see how names are spelled**, if no list of names in a definition that it
adds is a single member. -/
theorem apply_spellOut (r : Registry) {c : Command} (h : c.Listed) :
    c.spellOut.apply r = c.apply r := by
  cases c with
  | addRole role definition =>
    simp only [Command.spellOut, Command.apply, addRole, requireRole, requireName_spellOut]
  | setDefaultRole role force =>
    simp only [Command.spellOut, Command.apply, setDefaultRole, requireRole, requireName_spellOut]
  | addResource resource definition =>
    simp only [Command.spellOut, Command.apply, Value.name_spellOut, additionEvents_spellOutValue,
      addResource_spellOut r resource h]
  | initResources options =>
    simp only [Command.spellOut, Command.apply, initResources, FeatureOptions.parse_spellOut]
    cases hparse : FeatureOptions.parse options with
    | error e => rfl
    | ok o =>
      have hall : r.defineAll (o.resources.map FeatureEntry.spellOut) = r.defineAll o.resources :=
        defineAll_spellOut r (h o hparse)
      simp only [map_ok, FeatureOptions.spelledOut, hall]
  | _ => rfl

/-! ## 5. What is stored -/

/-- Every rulebook of the registry holds plain texts. -/
def SpelledOut (r : Registry) : Prop :=
  ∀ name m, r.metadata? name = some m → m.SpelledOut

theorem SpelledOut.of_resources_eq (hr : r.SpelledOut) (h : r'.resources = r.resources) :
    r'.SpelledOut := by
  intro name m hm
  rw [metadata?, h] at hm
  exact hr name m hm

theorem SpelledOut.addResource (hr : r.SpelledOut) {resource definition : Value}
    (hd : DefinedBy Definition.InTexts definition)
    (h : r.addResource resource definition = .ok r') : r'.SpelledOut := by
  rw [Registry.addResource, bind_eq_ok_iff] at h
  obtain ⟨name, -, h⟩ := h
  intro other m hm
  split at h
  · rw [declare] at h
    split at h
    · cases h
    · cases h
      rw [metadata?, lookup_assign] at hm
      split at hm
      · cases hm
      · exact hr other m hm
  · rw [define] at h
    split at h
    · cases h
    · split at h
      · cases h
      · rename_i d hofValue
        split at h
        · cases h
        · rename_i m' hvalid
          cases h
          rw [metadata?, lookup_assign] at hm
          split at hm
          · cases hm
            exact Definition.spelledOut_of_validate (hd d hofValue) hvalid
          · exact hr other m hm

theorem SpelledOut.apply (hr : r.SpelledOut) {c : Command} (hc : c.InTexts) :
    (c.apply r).1.SpelledOut :=
  apply_keeps (fun h hr => hr.of_resources_eq h) (fun hd hr h => hr.addResource hd h) hr hc

theorem spelledOut_of_build {o : RootOptions} (h : build o = .ok r) : r.SpelledOut :=
  build_keeps (D := DefinedBy Definition.InTexts) (fun h hr => hr.of_resources_eq h)
    (fun hd hr h => hr.addResource hd h) (fun _ hd => nomatch hd) (fun _ _ hm => nomatch hm) h

end Registry

end AccessControl
