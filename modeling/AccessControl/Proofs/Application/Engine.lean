import AccessControl.Http.Server
import AccessControl.Proofs.Decision.Grants
import AccessControl.Proofs.Registry.Growth

/-!
# The engine of the application

The application starts its engine from declarations: enumerations, maps and records that are read,
checked, validated and put into a registry.  All this happens once, and always in the same way;
the only thing that is left open is the flag that turns recording on.

So the registry can be written down, `Rulebook.registry`, and the start gives nothing else
(`startRegistry_outcome`).  What the table of the rulebook says about a role then holds of the
engine (`heldLevels_registry`): the levels that a role holds on users are those of the table.
-/

namespace AccessControl

namespace Rulebook

/-! ## 1. The registry, written down -/

/-- The level as the registry names it. -/
def levelName (l : UserLevel) : Value := .text l.name

/-- What a role is granted, once it has been validated. -/
def grantOf (r : Role) : Grant where
  permissions := (permissions r).map fun p => (.text p.1.name, p.2.map levelName)
  relationships := [.text "OWNER"]

/-- The rulebook of users, once it has been validated. -/
def metadata : Metadata where
  identifier := "user_id"
  actions := UserAction.all.map fun a => .text a.name
  levels := UserLevel.every.map fun l => (levelName l, ⟨.rule l.rule, l.priority⟩)
  relationships := [.text "OWNER"]
  grants := Role.all.map fun r => (r.name, grantOf r)

/-- The options of the root, once they have been read. -/
def options (logging : Bool) : RootOptions where
  roles := Role.all.map fun r => (r.name, r.definition)
  defaultRole := Role.seller.name
  resources := [userResource]
  resolver := .resolver .directory
  checks := [activeAccount]
  logging := some logging
  sink := some (.sink .securityLog)
  authnRefusal := some (.refusal .httpUnauthenticated)
  authzRefusal := some (.refusal .httpUnauthorized)

/-- The registry with the roles only. -/
def withRoles : Registry :=
  { Registry.empty with
    roles := Role.all.map fun r => (r.name, r.definition)
    index := Role.all.map fun r => (r.name, []) }

/-- The registry that the root options describe: users are declared, but have no rulebook. -/
def declared (logging : Bool) : Registry where
  roles := Role.all.map fun r => (r.name, r.definition)
  resources := [(userResource, none)]
  index := Role.all.map fun r => (r.name, [])
  defaultRole := some Role.seller.name
  checks :=
    [⟨activeAccount, .text "ActiveAccount", .text "account is not active", .rule .activeAccount⟩]
  logging := logging
  sink := .sink .securityLog
  authnRefusal := .refusal .httpUnauthenticated
  authzRefusal := .refusal .httpUnauthorized
  resolver := some (.resolver .directory)

/-- The registry of the application. -/
def registry (logging : Bool) : Registry :=
  { declared logging with
    resources := [(userResource, some metadata)]
    index := Role.all.map fun r => (r.name, [userResource]) }

/-! ## 2. What the declarations are read as -/

theorem parse_rootOptions (logging : Bool) :
    RootOptions.parse (.map (rootOptions logging)) = .ok (options logging) := rfl

theorem foldlM_addRole_roles :
    (Role.all.map fun r => (r.name, r.definition)).foldlM
      (fun r (role : String × Value) => r.addRole (.text role.1) role.2) Registry.empty =
        .ok withRoles := rfl

/-- The options of the root describe the registry without rulebook. -/
theorem build_options (logging : Bool) :
    Registry.build (options logging) = .ok (declared logging) := by
  have hresources : [userResource].foldlM
      (fun r name => Registry.addResource r (.text name) .null) withRoles =
        .ok { withRoles with resources := [(userResource, none)] } := rfl
  have hdefault : Registry.setDefaultRole { withRoles with resources := [(userResource, none)] }
      (.text Role.seller.name) false =
        .ok { withRoles with
          resources := [(userResource, none)]
          defaultRole := some Role.seller.name } := rfl
  refine (bind_eq_of_ok foldlM_addRole_roles _).trans ?_
  refine (bind_eq_of_ok hresources _).trans ?_
  refine (bind_eq_of_ok hdefault _).trans ?_
  rfl

theorem parse_userFeature :
    FeatureOptions.parse userFeature = .ok ⟨[⟨userResource, userDefinition⟩]⟩ := rfl

/-- The grants of every role are read as they stand in the table. -/
theorem readGrants_roles (logging : Bool) :
    Definition.readGrants (declared logging).hasRole metadata.actions
      (metadata.levels.map Prod.fst) metadata.relationships []
      (Role.all.map fun r => (r.member, grant r)) = .ok metadata.grants := rfl

theorem validate_userDefinition (logging : Bool) :
    userDefinition.validate (declared logging).hasRole = .ok metadata := by
  have hidentifier : userDefinition.identifierOf = .ok metadata.identifier := rfl
  have hactions : Definition.nameSet userDefinition.actions = .ok metadata.actions := rfl
  have hrelationships :
      Definition.nameSet userDefinition.relationships = .ok metadata.relationships := rfl
  have hlevels : Definition.levelsOf userDefinition.levels = .ok metadata.levels := rfl
  have hroles : userDefinition.roles.requireEntries =
      .ok (Role.all.map fun r => (r.member, grant r)) := rfl
  rw [Definition.validate, hidentifier, hactions, hrelationships, hlevels, hroles]
  refine (bind_eq_of_ok rfl _).trans ?_
  refine (bind_eq_of_ok rfl _).trans ?_
  refine (bind_eq_of_ok rfl _).trans ?_
  refine (bind_eq_of_ok rfl _).trans ?_
  refine (bind_eq_of_ok rfl _).trans ?_
  exact bind_eq_of_ok (readGrants_roles logging) _

theorem define_userResource (logging : Bool) :
    (declared logging).define userResource userDefinition.toValue = .ok (registry logging) := by
  have hread : Definition.ofValue? userDefinition.toValue = some userDefinition := rfl
  rw [Registry.define, hread]
  simp only [validate_userDefinition]
  rfl

theorem addResource_userResource (logging : Bool) :
    (declared logging).addResource (.text userResource) userDefinition.toValue =
      .ok (registry logging) := by
  have hname : Registry.requireResource (.text userResource) = .ok userResource := rfl
  rw [Registry.addResource, hname, ok_bind]
  exact define_userResource logging

/-! ## 3. The start -/

theorem fromOptions_rootOptions (logging : Bool) :
    (Registry.fromOptions (.map (rootOptions logging))).outcome = .ok (declared logging) := by
  rw [Registry.fromOptions, parse_rootOptions]
  simp only [Except.bind, build_options]

theorem initResources_userFeature (logging : Bool) :
    ((declared logging).initResources userFeature).1 = registry logging ∧
      ((declared logging).initResources userFeature).2.outcome = .ok () := by
  have hdeclared : (declared logging).hasResource userResource = true := rfl
  have hall : (declared logging).defineAll [⟨userResource, userDefinition⟩] =
      (registry logging,
        ⟨Registry.additionEvents userResource userDefinition.toValue ++ [], .ok ()⟩) := by
    rw [Registry.defineAll, hdeclared]
    simp only [addResource_userResource]
    rfl
  rw [Registry.initResources, parse_userFeature]
  simp only [hall]
  exact ⟨trivial, trivial⟩

/-- **The start gives the registry of the application.** -/
theorem startRegistry_outcome (logging : Bool) :
    (Http.Server.startRegistry logging).outcome = .ok (registry logging) := by
  obtain ⟨hregistry, houtcome⟩ := initResources_userFeature logging
  rw [Http.Server.startRegistry, Run.bind_of_ok (fromOptions_rootOptions logging)]
  simp only [hregistry, houtcome]
  rfl

/-- The registry of the application can be come by. -/
theorem reachable_registry (logging : Bool) : (registry logging).Reachable := by
  have h := Registry.Reachable.step (.initResources userFeature)
    (.fromOptions (fromOptions_rootOptions logging))
  rw [Registry.Command.apply, (initResources_userFeature logging).1] at h
  exact h

/-! ## 4. What the registry says -/

/-- Users are the only resource. -/
theorem eq_metadata_of_metadata? {logging : Bool} {name : String} {m : Metadata}
    (h : (registry logging).metadata? name = some m) : m = metadata := by
  have hlookup : ([(userResource, some metadata)].lookup name).join = some m := h
  rw [List.lookup_cons] at hlookup
  split at hlookup
  · cases hlookup
    rfl
  · cases hlookup

/-- No other resource has a rulebook. -/
theorem metadata?_of_ne {logging : Bool} {resource : String} (h : resource ≠ userResource) :
    (registry logging).metadata? resource = none := by
  have hlookup : [(userResource, some metadata)].lookup resource = none := by
    rw [List.lookup_cons, beq_false_of_ne h]
    rfl
  change ([(userResource, some metadata)].lookup resource).join = none
  rw [hlookup]
  rfl

/-- The rulebook lists texts. -/
theorem listsTexts_registry (logging : Bool) : (registry logging).ListsTexts := by
  intro name m hm
  rw [eq_metadata_of_metadata? hm]
  intro g hg p hp l hl
  obtain ⟨r, -, rfl⟩ := List.mem_map.mp hg
  obtain ⟨e, -, rfl⟩ := List.mem_map.mp hp
  obtain ⟨level, -, rfl⟩ := List.mem_map.mp hl
  exact Value.isText_text level.name

/-- The levels through which the table grants an action to a role. -/
def levelsOf (r : Role) (a : UserAction) : List UserLevel :=
  ((permissions r).lookup a).getD []

/-- **The engine says what the table says.** -/
theorem heldLevels_registry (logging : Bool) (r : Role) (a : UserAction) :
    (registry logging).heldLevels (.text r.name) userMember.name a.member.name =
      .ok ((levelsOf r a).map levelName) := by
  cases r <;> cases a <;> rfl

/-- A level is found under its name. -/
theorem find?_levelName (l : UserLevel) :
    Value.find? (levelName l) metadata.levels = some ⟨.rule l.rule, l.priority⟩ := by
  cases l <;> rfl

end Rulebook

end AccessControl
