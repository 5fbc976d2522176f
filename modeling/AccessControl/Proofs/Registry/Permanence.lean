import AccessControl.Proofs.Decision.Relevance
import AccessControl.Proofs.Registry.Growth

/-!
# What a registry keeps

Commands can be given to a registry at any time, in any number, and some of them fail.  Whatever
they are, a registry forgets nothing: roles and resources keep their places, and what is defined
stays as it was defined.

## The two things that can change

Only two commands change what is there already.

* The default role, once it is set, changes only when it is set by force.
* The hooks, that is the checks, the flag, the sink and the refusals, change when they are set.

All else is added.  So decisions on a resource that is defined stay the same for as long as no
hook is set, `definitions_kept`: the rulebook is the same, and by `decidesAs_of_resourceDefinition`
nothing else has a part in them.

Both exceptions are about commands that *succeed*; `Command.Throughout` says of every command of a
run what it is like at the registry that it is given to.
-/

namespace AccessControl

namespace Registry

/-- The later registry has everything that the earlier one has: the roles with their definitions
and the resources in their places, and the rulebooks. -/
structure Extends (r s : Registry) : Prop where
  roles : r.roles <+: s.roles
  resources : r.resourceNames <+: s.resourceNames
  rulebooks : ∀ name m, r.metadata? name = some m → s.metadata? name = some m

namespace Command

/-- The command is carried out with success. -/
def Succeeds (r : Registry) (c : Command) : Prop :=
  (c.apply r).2.outcome = .ok ()

/-- The command sets the default role by force. -/
def forcesDefault : Command → Bool
  | setDefaultRole _ force => force
  | _ => false

/-- The command sets something that every decision begins or ends with. -/
def setsHook : Command → Bool
  | setChecks _ | setLogging _ | setSink _ | setAuthnRefusal _ | setAuthzRefusal _ => true
  | _ => false

/-- Every command of a run is as told, at the registry that it is given to. -/
def Throughout (P : Registry → Command → Prop) (r : Registry) : List Command → Prop
  | [] => True
  | c :: rest => P r c ∧ Throughout P (c.apply r).1 rest

end Command

/-- The two registries have the same hooks and the same default role. -/
structure SameSettings (r s : Registry) : Prop extends r.SameHooks s where
  defaultRole : s.defaultRole = r.defaultRole

variable {r s t : Registry} {c : Command} {commands : List Command}

/-! ## 1. What is added -/

theorem Extends.refl (r : Registry) : r.Extends r :=
  ⟨List.prefix_refl _, List.prefix_refl _, fun _ _ h => h⟩

theorem Extends.trans (h : r.Extends s) (h' : s.Extends t) : r.Extends t where
  roles := h.roles.trans h'.roles
  resources := h.resources.trans h'.resources
  rulebooks := fun name m hm => h'.rulebooks name m (h.rulebooks name m hm)

/-- A resource that is put in where there is no rulebook takes nothing away. -/
theorem extends_of_assign {resource : String} (hnew : r.metadata? resource = none)
    (hroles : s.roles = r.roles) {m : Option Metadata}
    (hresources : s.resources = assign resource m r.resources) : r.Extends s where
  roles := hroles.symm ▸ List.prefix_refl r.roles
  resources := by
    rw [resourceNames, resourceNames, hresources, keys_assign]
    split
    · exact List.prefix_refl _
    · exact List.prefix_append _ _
  rulebooks := by
    intro name known hknown
    have hne : name ≠ resource := by
      rintro rfl
      rw [hnew] at hknown
      cases hknown
    rw [metadata?, hresources, lookup_assign, if_neg hne]
    exact hknown

/-- A resource that is not declared has no rulebook. -/
theorem metadata?_eq_none_of_not_declared {resource : String}
    (h : r.hasResource resource = false) : r.metadata? resource = none := by
  rw [hasResource, Option.isSome_eq_false_iff, Option.isNone_iff_eq_none] at h
  rw [metadata?, h]
  rfl

/-- **One change only adds.** -/
theorem extends_of_change (h : Change r s) : r.Extends s := by
  cases h with
  | role name definition hnew =>
    exact ⟨List.prefix_append _ _, List.prefix_refl _, fun _ _ h => h⟩
  | defaultRole name force hrole hfree =>
    exact ⟨List.prefix_refl _, List.prefix_refl _, fun _ _ h => h⟩
  | declaration resource hnew =>
    exact extends_of_assign (metadata?_eq_none_of_not_declared hnew) rfl rfl
  | definition resource d m hnew hvalid => exact extends_of_assign hnew rfl rfl
  | hooks checks logging sink authn authz resolver =>
    exact ⟨List.prefix_refl _, List.prefix_refl _, fun _ _ h => h⟩

theorem Grows.extends (h : Grows r s) : r.Extends s := by
  induction h with
  | refl => exact .refl r
  | tail _ hstep ih => exact ih.trans (extends_of_change hstep)

namespace Extends

variable (h : r.Extends s)

include h

theorem roleNames : r.roleNames <+: s.roleNames := h.roles.map Prod.fst

/-- A registered role keeps its definition. -/
theorem lookup_roles {role : String} (hrole : r.hasRole role = true) :
    s.roles.lookup role = r.roles.lookup role := by
  obtain ⟨added, hadded⟩ := h.roles
  obtain ⟨definition, hdefinition⟩ := Option.isSome_iff_exists.mp hrole
  rw [← hadded, List.lookup_append, hdefinition, Option.some_or]

/-- A resource that is defined keeps its rulebook, by whatever name it is asked for. -/
theorem resourceDefinition {resource : Value} {m : Metadata}
    (hdef : r.resourceDefinition resource = .ok (some m)) :
    s.resourceDefinition resource = .ok (some m) := by
  rw [Registry.resourceDefinition, bind_eq_ok_iff] at hdef
  obtain ⟨name, hname, hm⟩ := hdef
  rw [Registry.resourceDefinition, hname, ok_bind, pure_eq_ok,
    h.rulebooks name m (Except.ok.inj hm)]

end Extends

/-! ## 2. What is set -/

/-- A command that fails leaves the registry alone, unless it is about the resources of a
feature. -/
theorem apply_of_fails (hfails : ¬ c.Succeeds r) (hc : ∀ options, c ≠ .initResources options) :
    (c.apply r).1 = r := by
  have hattempt : ∀ events change, (Command.attempt r events change).2.outcome ≠ .ok () →
      (Command.attempt r events change).1 = r := by
    intro events change hne
    cases change with
    | error e => rfl
    | ok next => exact absurd rfl hne
  cases c with
  | initResources options => exact absurd rfl (hc options)
  | _ => exact hattempt _ _ hfails

theorem sameSettings_of_addRole {role definition : Value}
    (h : r.addRole role definition = .ok s) : r.SameSettings s := by
  obtain rfl | ⟨name, -, rfl⟩ := addRole_cases h
  · exact ⟨.refl s, rfl⟩
  · exact ⟨⟨rfl, rfl, rfl, rfl, rfl⟩, rfl⟩

theorem sameSettings_of_addResource {resource definition : Value}
    (h : r.addResource resource definition = .ok s) : r.SameSettings s := by
  obtain ⟨name, -, ⟨-, rfl⟩ | ⟨d, m, -, -, rfl⟩⟩ := addResource_cases h
  · exact ⟨⟨rfl, rfl, rfl, rfl, rfl⟩, rfl⟩
  · exact ⟨⟨rfl, rfl, rfl, rfl, rfl⟩, rfl⟩

theorem sameSettings_of_defineAll (r : Registry) (features : List FeatureEntry) :
    r.SameSettings (r.defineAll features).1 := by
  induction features generalizing r with
  | nil => exact ⟨.refl r, rfl⟩
  | cons e rest ih =>
    rw [defineAll]
    split
    · exact ⟨.refl r, rfl⟩
    · split
      · exact ⟨.refl r, rfl⟩
      · rename_i next hnext
        have hfirst := sameSettings_of_addResource hnext
        exact ⟨hfirst.toSameHooks.trans (ih next).toSameHooks,
          (ih next).defaultRole.trans hfirst.defaultRole⟩

theorem sameSettings_of_initResources (r : Registry) (options : Value) :
    r.SameSettings (r.initResources options).1 := by
  rw [initResources]
  split
  · exact ⟨.refl r, rfl⟩
  · rename_i read _
    have hall := sameSettings_of_defineAll r read.resources
    simp only
    split
    · exact hall
    · exact hall

/-- A command changes the hooks only if it sets one and succeeds. -/
theorem sameHooks_of_apply (h : ¬ (c.setsHook = true ∧ c.Succeeds r)) :
    r.SameHooks (c.apply r).1 := by
  by_cases hset : c.setsHook = true
  · have hfails : ¬ c.Succeeds r := fun hok => h ⟨hset, hok⟩
    rw [apply_of_fails hfails (by rintro options rfl; cases hset)]
    exact .refl r
  · cases c with
    | addRole role definition =>
      exact attempt_keeps (.refl r) fun _ hok => (sameSettings_of_addRole hok).toSameHooks
    | setDefaultRole role force =>
      refine attempt_keeps (.refl r) fun next hok => ?_
      obtain rfl | ⟨name, -, -, rfl⟩ := setDefaultRole_cases hok
      · exact .refl next
      · exact ⟨rfl, rfl, rfl, rfl, rfl⟩
    | addResource resource definition =>
      exact attempt_keeps (.refl r) fun _ hok => (sameSettings_of_addResource hok).toSameHooks
    | initResources options => exact (sameSettings_of_initResources r options).toSameHooks
    | _ => exact absurd rfl hset

/-- A command changes a default role that is set only if it does so by force and succeeds. -/
theorem defaultRole_of_apply (h : ¬ (c.forcesDefault = true ∧ c.Succeeds r)) {role : String}
    (hrole : r.defaultRole = some role) : (c.apply r).1.defaultRole = some role := by
  have hkept : ∀ {events change}, (∀ next, change = .ok next → next.defaultRole = r.defaultRole) →
      (Command.attempt r events change).1.defaultRole = some role := by
    intro events change hnext
    exact attempt_keeps (P := fun s => s.defaultRole = some role) hrole
      fun next hok => (hnext next hok).trans hrole
  cases c with
  | addRole name definition => exact hkept fun _ hok => (sameSettings_of_addRole hok).defaultRole
  | setDefaultRole name force =>
    refine hkept fun next hok => ?_
    have hsucceeds : (Command.setDefaultRole name force).Succeeds r := by
      rw [Command.Succeeds, Command.apply, hok]
      rfl
    obtain rfl | ⟨found, -, hfree, -⟩ := setDefaultRole_cases hok
    · rfl
    · rw [hrole, Option.isNone_some, Bool.false_or] at hfree
      exact absurd ⟨hfree, hsucceeds⟩ h
  | addResource resource definition =>
    exact hkept fun _ hok => (sameSettings_of_addResource hok).defaultRole
  | initResources options =>
    exact (sameSettings_of_initResources r options).defaultRole.trans hrole
  | setChecks checks => exact hkept fun _ hok => (sameCatalogue_of_setChecks hok).defaultRole
  | setLogging enabled => exact hkept fun _ hok => (sameCatalogue_of_setLogging hok).defaultRole
  | setSink sink => exact hkept fun _ hok => (sameCatalogue_of_setSink hok).defaultRole
  | setAuthnRefusal refusal =>
    exact hkept fun _ hok => (sameCatalogue_of_setAuthnRefusal hok).defaultRole
  | setAuthzRefusal refusal =>
    exact hkept fun _ hok => (sameCatalogue_of_setAuthzRefusal hok).defaultRole

/-! ## 3. Runs -/

/-- A relation that holds across every step of a run holds across the run. -/
theorem rel_applyAll {P : Registry → Command → Prop} {R : Registry → Registry → Prop}
    (hrefl : ∀ r, R r r) (htrans : ∀ r s t, R r s → R s t → R r t)
    (hstep : ∀ r c, P r c → R r (c.apply r).1) (h : Command.Throughout P r commands) :
    R r (Command.applyAll r commands) := by
  induction commands generalizing r with
  | nil => exact hrefl r
  | cons c rest ih => exact htrans _ _ _ (hstep r c h.1) (ih h.2)

/-- **Definitions are kept.**  Let any commands be given to a registry, whether they succeed or
fail.

* The roles keep their places and their definitions, the resources their places, and the
  resources that are defined their rulebooks.
* A default role stays the default role, unless another one is set by force.
* Unless a hook is set, every question about a resource that was defined before is decided alike
  afterwards: with the same calls, the same record and the same outcome. -/
theorem definitions_kept (r : Registry) (commands : List Command) :
    r.roleNames <+: (Command.applyAll r commands).roleNames ∧
    r.resourceNames <+: (Command.applyAll r commands).resourceNames ∧
    (∀ role, r.hasRole role = true →
      (Command.applyAll r commands).roles.lookup role = r.roles.lookup role) ∧
    (∀ name m, r.metadata? name = some m →
      (Command.applyAll r commands).metadata? name = some m) ∧
    (Command.Throughout (fun r c => ¬ (c.forcesDefault = true ∧ c.Succeeds r)) r commands →
      ∀ role, r.defaultRole = some role →
        (Command.applyAll r commands).defaultRole = some role) ∧
    (Command.Throughout (fun r c => ¬ (c.setsHook = true ∧ c.Succeeds r)) r commands →
      ∀ (i : Interpretation) (context resource : Value) (m : Metadata),
        r.resourceDefinition resource.name = .ok (some m) →
        (∀ q : Query, q.resource = resource.name →
          r.DecidesAs (Command.applyAll r commands) i context q) ∧
        ∀ action filter, hasPermission i r context resource action filter =
          hasPermission i (Command.applyAll r commands) context resource action filter) := by
  have hextends : r.Extends (Command.applyAll r commands) := (grows_of_applyAll r commands).extends
  refine ⟨hextends.roleNames, hextends.resources, fun role => hextends.lookup_roles,
    hextends.rulebooks, fun hforce role hrole => ?_, fun hhooks i context resource m hdef => ?_⟩
  · exact rel_applyAll (R := fun r s => r.defaultRole = some role → s.defaultRole = some role)
      (fun _ h => h) (fun _ _ _ h h' hr => h' (h hr)) (fun _ _ hc => defaultRole_of_apply hc)
      hforce hrole
  · have hsame : r.SameHooks (Command.applyAll r commands) :=
      rel_applyAll .refl (fun _ _ _ => .trans) (fun _ _ => sameHooks_of_apply) hhooks
    have hrulebook : r.resourceDefinition resource.name =
        (Command.applyAll r commands).resourceDefinition resource.name := by
      rw [hdef, hextends.resourceDefinition hdef]
    have hdecides : ∀ q : Query, q.resource = resource.name →
        r.DecidesAs (Command.applyAll r commands) i context q := by
      intro q hq
      refine decidesAs_of_resourceDefinition hsame ?_
      rw [hq]
      exact hrulebook
    exact ⟨hdecides, fun action filter => hasPermission_congr fun _ _ => hdecides _ rfl⟩

/-- Commands that a registry of the application may be given later: a new role, another rulebook
for users, another default role, and a flag that is none.  The second and the last one fail. -/
def laterCommands : List Command :=
  [.addRole (.text "AUDITOR") (.map []),
    .addResource (.text Rulebook.userResource) Rulebook.userDefinition.toValue,
    .setDefaultRole (.text Role.admin.name) false,
    .setLogging (.text "off")]

/-- The case of these commands: the default role and the rulebook stay, and an administrator may
change an agent afterwards as before. -/
theorem definitions_kept_later :
    Command.Throughout (fun r c => ¬ (c.forcesDefault = true ∧ c.Succeeds r))
      (Rulebook.registry true) laterCommands ∧
    Command.Throughout (fun r c => ¬ (c.setsHook = true ∧ c.Succeeds r))
      (Rulebook.registry true) laterCommands ∧
    (Command.applyAll (Rulebook.registry true) laterCommands).roleNames =
      (Rulebook.registry true).roleNames ++ ["AUDITOR"] ∧
    (Command.applyAll (Rulebook.registry true) laterCommands).defaultRole =
      some Role.default.name ∧
    (Command.applyAll (Rulebook.registry true) laterCommands).metadata? Rulebook.userResource =
      some Rulebook.metadata ∧
    (Rulebook.registry true).DecidesAs (Command.applyAll (Rulebook.registry true) laterCommands)
      .standard adminContext
      (.instanceOf Rulebook.userMember UserAction.update.member agentValue) := by
  have hforce : Command.Throughout (fun r c => ¬ (c.forcesDefault = true ∧ c.Succeeds r))
      (Rulebook.registry true) laterCommands := by
    refine ⟨?_, ?_, ?_, ?_, trivial⟩ <;> exact fun h => Bool.noConfusion h.1
  have hhooks : Command.Throughout (fun r c => ¬ (c.setsHook = true ∧ c.Succeeds r))
      (Rulebook.registry true) laterCommands := by
    refine ⟨?_, ?_, ?_, fun h => ?_, trivial⟩
    · exact fun h => Bool.noConfusion h.1
    · exact fun h => Bool.noConfusion h.1
    · exact fun h => Bool.noConfusion h.1
    · have hfails := h.2
      cases hfails
  obtain ⟨-, -, -, hrulebooks, hdefault, hdecides⟩ :=
    definitions_kept (Rulebook.registry true) laterCommands
  refine ⟨hforce, hhooks, rfl, hdefault hforce _ rfl, hrulebooks _ _ rfl, ?_⟩
  exact (hdecides hhooks .standard adminContext Rulebook.userMember Rulebook.metadata rfl).1 _ rfl

end Registry

end AccessControl
