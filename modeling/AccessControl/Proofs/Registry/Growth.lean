import AccessControl.Registry.Boot
import AccessControl.Proofs.Outcome
import AccessControl.Proofs.Registry.Table
import Mathlib.Logic.Relation

/-!
# How registries grow

There are nine commands, and each can fail in ways of its own; but there are only five ways in
which a registry ever changes, and they are listed in `Registry.Change`.

* A role is added that is not registered yet.
* A registered role becomes the default, if there is none or if force is used.
* A resource is declared that is not declared yet.
* A resource that has no rulebook gets one, which has been validated against the roles.
* A hook, the checks, the flag or the resolver are set.

## What follows from it

A registry *grows into* another when finitely many changes lead from the one to the other.  Every
command makes the registry grow, also one that fails (`grows_of_apply`), and so does building a
registry from options (`grows_of_build`).  Hence every registry that can be come by has grown from
the empty one, and a property of all of them need only be checked against the five changes
(`Registry.Reachable.invariant`).

What the commands are given is not part of a change.  A property that depends on it is shown for
the commands themselves; if it is about the resources only, then adding one resource is all there
is to look at (`apply_keeps`, `build_keeps`).  An instance is that no resource is declared under a
name that is blank (`Registry.Reachable.properlyNamed`).
-/

namespace AccessControl

namespace Registry

/-- One change of a registry. -/
inductive Change (r : Registry) : Registry → Prop
  | role (name : String) (definition : Value) (hnew : r.hasRole name = false) :
      Change r { r with
        roles := r.roles ++ [(name, definition)]
        index := r.index ++ [(name, [])] }
  | defaultRole (name : String) (force : Bool) (hrole : r.hasRole name = true)
      (hfree : (r.defaultRole.isNone || force) = true) :
      Change r { r with defaultRole := some name }
  | declaration (resource : String) (hnew : r.hasResource resource = false) :
      Change r { r with resources := assign resource none r.resources }
  | definition (resource : String) (d : Definition) (m : Metadata)
      (hnew : r.metadata? resource = none) (hvalid : d.validate r.hasRole = .ok m) :
      Change r { r with
        resources := assign resource (some m) r.resources
        index := indexResource resource (m.grants.map Prod.fst) r.index }
  | hooks (checks : List GlobalCheck) (logging : Bool) (sink authn authz : Callable)
      (resolver : Option Callable) :
      Change r { r with
        checks := checks
        logging := logging
        sink := sink
        authnRefusal := authn
        authzRefusal := authz
        resolver := resolver }

/-- Finitely many changes lead from the first registry to the second. -/
def Grows : Registry → Registry → Prop :=
  Relation.ReflTransGen Change

/-- The registries that can be come by: a new one, one built from the options of a root, and
whatever commands make of them, whether they succeed or fail. -/
inductive Reachable : Registry → Prop
  | empty : Reachable .empty
  | fromOptions {v : Value} {r : Registry} (h : (fromOptions v).outcome = .ok r) : Reachable r
  | step {r : Registry} (c : Command) (h : Reachable r) : Reachable (c.apply r).1

variable {r r' : Registry}

/-! ## 1. Operations that succeed -/

/-- All that registering a role can do. -/
theorem addRole_cases {role definition : Value} (h : r.addRole role definition = .ok r') :
    r' = r ∨ ∃ name, r.hasRole name = false ∧ r' = { r with
      roles := r.roles ++ [(name, definition)]
      index := r.index ++ [(name, [])] } := by
  rw [addRole, bind_eq_ok_iff] at h
  obtain ⟨name, -, h⟩ := h
  by_cases hnull : definition.isNull = true
  · rw [if_pos hnull] at h
    cases h
  · simp only [if_neg hnull] at h
    split at h
    · cases h
      exact Or.inl rfl
    · rename_i hnew
      cases h
      exact Or.inr ⟨name, Bool.eq_false_iff.mpr hnew, rfl⟩

/-- All that setting the default role can do. -/
theorem setDefaultRole_cases {role : Value} {force : Bool}
    (h : r.setDefaultRole role force = .ok r') :
    r' = r ∨ ∃ name, r.hasRole name = true ∧ (r.defaultRole.isNone || force) = true ∧
      r' = { r with defaultRole := some name } := by
  rw [setDefaultRole, bind_eq_ok_iff] at h
  obtain ⟨name, -, h⟩ := h
  by_cases hrole : (!r.hasRole name) = true
  · rw [if_pos hrole] at h
    cases h
  · simp only [if_neg hrole] at h
    rw [Bool.not_eq_true', Bool.not_eq_false] at hrole
    split at h
    · rename_i hfree
      cases h
      exact Or.inr ⟨name, hrole, hfree, rfl⟩
    · cases h
      exact Or.inl rfl

/-- A name that is required is the plain name behind the value, and not blank. -/
theorem requireName_ok {what name : String} {v : Value} (h : requireName what v = .ok name) :
    v.name.text? = some name ∧ Text.blank name = false := by
  rw [requireName] at h
  split at h
  · rename_i s hs
    split at h
    · cases h
    · rename_i hblank
      cases h
      exact ⟨hs, Bool.eq_false_iff.mpr hblank⟩
  · cases h

/-- All that adding a resource can do: it is declared, or it gets its rulebook.  Its name is not
blank. -/
theorem addResource_cases {resource definition : Value}
    (h : r.addResource resource definition = .ok r') :
    ∃ name, Text.blank name = false ∧ ((r.hasResource name = false ∧
        r' = { r with resources := assign name none r.resources }) ∨
      ∃ (d : Definition) (m : Metadata), r.metadata? name = none ∧
        d.validate r.hasRole = .ok m ∧ r' = { r with
          resources := assign name (some m) r.resources
          index := indexResource name (m.grants.map Prod.fst) r.index }) := by
  rw [addResource, bind_eq_ok_iff] at h
  obtain ⟨name, hname, h⟩ := h
  refine ⟨name, (requireName_ok hname).2, ?_⟩
  split at h
  · rw [declare] at h
    split at h
    · cases h
    · rename_i hnew
      cases h
      exact Or.inl ⟨Bool.eq_false_iff.mpr hnew, rfl⟩
  · rw [define] at h
    split at h
    · cases h
    · rename_i hnew
      rw [Bool.not_eq_true, Option.isSome_eq_false_iff, Option.isNone_iff_eq_none] at hnew
      split at h
      · cases h
      · rename_i d hd
        split at h
        · cases h
        · rename_i m hvalid
          cases h
          exact Or.inr ⟨d, m, hnew, hvalid, rfl⟩

theorem Grows.of_change (h : Change r r') : Grows r r' :=
  Relation.ReflTransGen.single h

theorem grows_of_addRole {role definition : Value} (h : r.addRole role definition = .ok r') :
    Grows r r' := by
  obtain rfl | ⟨name, hnew, rfl⟩ := addRole_cases h
  · exact Relation.ReflTransGen.refl
  · exact .of_change (.role name definition hnew)

theorem grows_of_setDefaultRole {role : Value} {force : Bool}
    (h : r.setDefaultRole role force = .ok r') : Grows r r' := by
  obtain rfl | ⟨name, hrole, hfree, rfl⟩ := setDefaultRole_cases h
  · exact Relation.ReflTransGen.refl
  · exact .of_change (.defaultRole name force hrole hfree)

theorem grows_of_addResource {resource definition : Value}
    (h : r.addResource resource definition = .ok r') : Grows r r' := by
  obtain ⟨name, -, ⟨hnew, rfl⟩ | ⟨d, m, hnew, hvalid, rfl⟩⟩ := addResource_cases h
  · exact .of_change (.declaration name hnew)
  · exact .of_change (.definition name d m hnew hvalid)

/-- The two registries hold the same roles, resources, index and default role; they may differ in
the hooks, the checks, the flag and the resolver. -/
structure SameCatalogue (r r' : Registry) : Prop where
  roles : r'.roles = r.roles
  resources : r'.resources = r.resources
  index : r'.index = r.index
  defaultRole : r'.defaultRole = r.defaultRole

/-- Whatever hooks are set, it is a change. -/
theorem Grows.of_sameCatalogue (h : SameCatalogue r r') : Grows r r' := by
  have hhooks : r' = { r with
      checks := r'.checks
      logging := r'.logging
      sink := r'.sink
      authnRefusal := r'.authnRefusal
      authzRefusal := r'.authzRefusal
      resolver := r'.resolver } := by
    rw [← h.roles, ← h.resources, ← h.index, ← h.defaultRole]
  rw [hhooks]
  exact .of_change (.hooks _ _ _ _ _ _)

theorem sameCatalogue_of_setChecks {checks : Value} (h : r.setChecks checks = .ok r') :
    SameCatalogue r r' := by
  rw [setChecks] at h
  split at h
  · cases h
  · rw [bind_eq_ok_iff] at h
    obtain ⟨read, -, h⟩ := h
    cases h
    exact ⟨rfl, rfl, rfl, rfl⟩

theorem sameCatalogue_of_setLogging {enabled : Value} (h : r.setLogging enabled = .ok r') :
    SameCatalogue r r' := by
  unfold setLogging at h
  split at h
  · cases h
    exact ⟨rfl, rfl, rfl, rfl⟩
  · cases h

/-- Setting one of the hooks that have to be callable. -/
theorem sameCatalogue_of_setHook {what : String} {v : Value} (set : Callable → Registry)
    (hset : ∀ f, SameCatalogue r (set f))
    (h : (do let f ← requireFunction what v; return set f) = Except.ok r') :
    SameCatalogue r r' := by
  rw [bind_eq_ok_iff] at h
  obtain ⟨f, -, h⟩ := h
  cases h
  exact hset f

theorem sameCatalogue_of_setSink {v : Value} (h : r.setSink v = .ok r') : SameCatalogue r r' :=
  sameCatalogue_of_setHook (fun f => { r with sink := f }) (fun _ => ⟨rfl, rfl, rfl, rfl⟩) h

theorem sameCatalogue_of_setAuthnRefusal {v : Value} (h : r.setAuthnRefusal v = .ok r') :
    SameCatalogue r r' :=
  sameCatalogue_of_setHook (fun f => { r with authnRefusal := f }) (fun _ => ⟨rfl, rfl, rfl, rfl⟩) h

theorem sameCatalogue_of_setAuthzRefusal {v : Value} (h : r.setAuthzRefusal v = .ok r') :
    SameCatalogue r r' :=
  sameCatalogue_of_setHook (fun f => { r with authzRefusal := f }) (fun _ => ⟨rfl, rfl, rfl, rfl⟩) h

/-! ## 2. Commands -/

/-- A feature that is at fault keeps the rulebooks before the fault; a registry has grown by
these. -/
theorem grows_of_defineAll (r : Registry) (entries : List FeatureEntry) :
    Grows r (r.defineAll entries).1 := by
  induction entries generalizing r with
  | nil => exact Relation.ReflTransGen.refl
  | cons e rest ih =>
    rw [defineAll]
    split
    · exact Relation.ReflTransGen.refl
    · split
      · exact Relation.ReflTransGen.refl
      · rename_i next hnext
        exact (grows_of_addResource hnext).trans (ih next)

theorem grows_of_initResources (r : Registry) (options : Value) :
    Grows r (r.initResources options).1 := by
  rw [initResources]
  split
  · exact Relation.ReflTransGen.refl
  · rename_i read hread
    have hall := grows_of_defineAll r read.resources
    simp only
    split
    · exact hall
    · exact hall

/-- A change that either succeeds or leaves the registry alone has what the registry has, if it
keeps it when it succeeds. -/
theorem attempt_keeps {P : Registry → Prop} {events : List Event} {change : Except Fault Registry}
    (hr : P r) (h : ∀ next, change = .ok next → P next) :
    P (Command.attempt r events change).1 := by
  cases change with
  | error e => exact hr
  | ok next => exact h next rfl

theorem grows_of_attempt {events : List Event} {change : Except Fault Registry}
    (h : ∀ next, change = .ok next → Grows r next) :
    Grows r (Command.attempt r events change).1 :=
  attempt_keeps Relation.ReflTransGen.refl h

/-- **Every command makes the registry grow**, whether it succeeds or fails. -/
theorem grows_of_apply (r : Registry) (c : Command) : Grows r (c.apply r).1 := by
  cases c with
  | addRole role definition => exact grows_of_attempt fun _ => grows_of_addRole
  | setDefaultRole role force => exact grows_of_attempt fun _ => grows_of_setDefaultRole
  | addResource resource definition => exact grows_of_attempt fun _ => grows_of_addResource
  | initResources options => exact grows_of_initResources r options
  | setChecks checks =>
    exact grows_of_attempt fun _ h => .of_sameCatalogue (sameCatalogue_of_setChecks h)
  | setLogging enabled =>
    exact grows_of_attempt fun _ h => .of_sameCatalogue (sameCatalogue_of_setLogging h)
  | setSink sink => exact grows_of_attempt fun _ h => .of_sameCatalogue (sameCatalogue_of_setSink h)
  | setAuthnRefusal refusal =>
    exact grows_of_attempt fun _ h => .of_sameCatalogue (sameCatalogue_of_setAuthnRefusal h)
  | setAuthzRefusal refusal =>
    exact grows_of_attempt fun _ h => .of_sameCatalogue (sameCatalogue_of_setAuthzRefusal h)

/-- Commands make the registry grow, one after the other. -/
theorem grows_of_applyAll (r : Registry) (commands : List Command) :
    Grows r (Command.applyAll r commands) := by
  induction commands generalizing r with
  | nil => exact Relation.ReflTransGen.refl
  | cons c rest ih => exact (grows_of_apply r c).trans (ih (c.apply r).1)

/-! ## 3. Everything that can be come by -/

/-- What every step keeps is kept by steps one after the other. -/
theorem foldlM_keeps {α : Type} {P : Registry → Prop} {f : Registry → α → Except Fault Registry}
    {items : List α} (hstep : ∀ r a next, P r → f r a = .ok next → P next) (hr : P r)
    (h : items.foldlM f r = .ok r') : P r' := by
  induction items generalizing r with
  | nil =>
    cases h
    exact hr
  | cons a rest ih =>
    rw [List.foldlM_cons, bind_eq_ok_iff] at h
    obtain ⟨next, hnext, h⟩ := h
    exact ih (hstep r a next hr hnext) h

/-- Steps that make the registry grow make it grow one after the other. -/
theorem grows_of_foldlM {α : Type} {f : Registry → α → Except Fault Registry} {items : List α}
    (hstep : ∀ r a next, f r a = .ok next → Grows r next)
    (h : items.foldlM f r = .ok r') : Grows r r' :=
  foldlM_keeps (fun _ a next hgrown hnext => hgrown.trans (hstep _ a next hnext))
    Relation.ReflTransGen.refl h

/-- A registry that is built from options has grown from the empty one. -/
theorem grows_of_build {o : RootOptions} (h : build o = .ok r) : Grows empty r := by
  rw [build, bind_eq_ok_iff] at h
  obtain ⟨withRoles, hroles, h⟩ := h
  rw [bind_eq_ok_iff] at h
  obtain ⟨withResources, hresources, h⟩ := h
  rw [bind_eq_ok_iff] at h
  obtain ⟨withDefault, hdefault, h⟩ := h
  rw [bind_eq_ok_iff] at h
  obtain ⟨withChecks, hchecks, h⟩ := h
  cases h
  have hstart : Grows empty withRoles := grows_of_foldlM (fun _ _ _ => grows_of_addRole) hroles
  have hdeclared : Grows withRoles withResources :=
    grows_of_foldlM (fun _ _ _ => grows_of_addResource) hresources
  have hset : Grows withDefault withChecks :=
    .of_sameCatalogue (sameCatalogue_of_setChecks hchecks)
  have hlast : Grows withChecks { withChecks with
      resolver := some o.resolver
      logging := o.logging.getD withChecks.logging
      sink := o.sink.getD withChecks.sink
      authnRefusal := o.authnRefusal.getD withChecks.authnRefusal
      authzRefusal := o.authzRefusal.getD withChecks.authzRefusal } :=
    .of_sameCatalogue ⟨rfl, rfl, rfl, rfl⟩
  exact (((hstart.trans hdeclared).trans (grows_of_setDefaultRole hdefault)).trans hset).trans hlast

/-- A registry that options describe has been built from them. -/
theorem exists_build_of_fromOptions {v : Value} (h : (fromOptions v).outcome = .ok r) :
    ∃ o, build o = .ok r := by
  rw [fromOptions] at h
  split at h
  · rename_i hbuilt
    cases h
    obtain ⟨o, -, hbuild⟩ := bind_eq_ok_iff.mp hbuilt
    exact ⟨o, hbuild⟩
  · cases h

/-- Every registry that can be come by has grown from the empty one. -/
theorem Reachable.grows (h : Reachable r) : Grows .empty r := by
  induction h with
  | empty => exact Relation.ReflTransGen.refl
  | fromOptions h =>
    obtain ⟨o, hbuild⟩ := exists_build_of_fromOptions h
    exact grows_of_build hbuild
  | step c _ ih => exact ih.trans (grows_of_apply _ c)

/-- **Invariants of registries.**  What holds of the empty registry, and is kept by every change,
holds of every registry that can be come by. -/
theorem Reachable.invariant {P : Registry → Prop} (h : Reachable r) (hempty : P .empty)
    (hchange : ∀ r r', P r → Change r r' → P r') : P r := by
  have hkept : ∀ r, Grows .empty r → P r := by
    intro r hgrown
    induction hgrown with
    | refl => exact hempty
    | tail _ hstep ih => exact hchange _ _ ih hstep
  exact hkept r h.grows

/-! ## 4. What the resources have in common -/

/-- Every definition that the command adds satisfies the condition. -/
def Command.EveryDefinition (D : Value → Prop) : Command → Prop
  | addResource _ definition => D definition
  | initResources options =>
    ∀ o, FeatureOptions.parse options = .ok o → ∀ e ∈ o.resources, D e.definition.toValue
  | _ => True

theorem Command.everyDefinition_of_forall {D : Value → Prop} (h : ∀ v, D v) (c : Command) :
    c.EveryDefinition D := by
  cases c with
  | addResource resource definition => exact h definition
  | initResources options => exact fun o ho e he => h e.definition.toValue
  | _ => trivial

section Resources

/- A property of the resources is kept by every command, if it is kept when a resource is added with
a definition of the right kind. -/
variable {P : Registry → Prop} {D : Value → Prop}
  (hsame : ∀ {r r' : Registry}, r'.resources = r.resources → P r → P r')
  (hadd : ∀ {r r' : Registry} {resource definition : Value}, D definition → P r →
    r.addResource resource definition = .ok r' → P r')

theorem resources_of_addRole {role definition : Value} (h : r.addRole role definition = .ok r') :
    r'.resources = r.resources := by
  obtain rfl | ⟨name, -, rfl⟩ := addRole_cases h
  · rfl
  · rfl

theorem resources_of_setDefaultRole {role : Value} {force : Bool}
    (h : r.setDefaultRole role force = .ok r') : r'.resources = r.resources := by
  obtain rfl | ⟨name, -, -, rfl⟩ := setDefaultRole_cases h
  · rfl
  · rfl

include hadd in
theorem defineAll_keeps (hr : P r) {entries : List FeatureEntry}
    (h : ∀ e ∈ entries, D e.definition.toValue) : P (r.defineAll entries).1 := by
  induction entries generalizing r with
  | nil => exact hr
  | cons e rest ih =>
    rw [List.forall_mem_cons] at h
    rw [defineAll]
    split
    · exact hr
    · split
      · exact hr
      · rename_i next hnext
        exact ih (hadd h.1 hr hnext) h.2

include hadd in
theorem initResources_keeps (hr : P r) {options : Value}
    (h : (Command.initResources options).EveryDefinition D) : P (r.initResources options).1 := by
  rw [initResources]
  split
  · exact hr
  · rename_i read hread
    have hall := defineAll_keeps hadd hr (h read hread)
    simp only
    split
    · exact hall
    · exact hall

include hsame hadd

/-- **Commands keep what adding a resource keeps**, as long as they add nothing but definitions of
the right kind. -/
theorem apply_keeps (hr : P r) {c : Command} (hc : c.EveryDefinition D) : P (c.apply r).1 := by
  have hcatalogue : ∀ {r'}, SameCatalogue r r' → P r' := fun h => hsame h.resources hr
  cases c with
  | addRole role definition =>
    exact attempt_keeps hr fun _ h => hsame (resources_of_addRole h) hr
  | setDefaultRole role force =>
    exact attempt_keeps hr fun _ h => hsame (resources_of_setDefaultRole h) hr
  | addResource resource definition => exact attempt_keeps hr fun _ h => hadd hc hr h
  | initResources options => exact initResources_keeps hadd hr hc
  | setChecks checks => exact attempt_keeps hr fun _ h => hcatalogue (sameCatalogue_of_setChecks h)
  | setLogging enabled =>
    exact attempt_keeps hr fun _ h => hcatalogue (sameCatalogue_of_setLogging h)
  | setSink sink => exact attempt_keeps hr fun _ h => hcatalogue (sameCatalogue_of_setSink h)
  | setAuthnRefusal refusal =>
    exact attempt_keeps hr fun _ h => hcatalogue (sameCatalogue_of_setAuthnRefusal h)
  | setAuthzRefusal refusal =>
    exact attempt_keeps hr fun _ h => hcatalogue (sameCatalogue_of_setAuthzRefusal h)

/-- Building a registry adds its resources without a definition. -/
theorem build_keeps {o : RootOptions} (hnull : D .null) (hempty : P empty)
    (h : build o = .ok r) : P r := by
  rw [build, bind_eq_ok_iff] at h
  obtain ⟨withRoles, hroles, h⟩ := h
  rw [bind_eq_ok_iff] at h
  obtain ⟨withResources, hresources, h⟩ := h
  rw [bind_eq_ok_iff] at h
  obtain ⟨withDefault, hdefault, h⟩ := h
  rw [bind_eq_ok_iff] at h
  obtain ⟨withChecks, hchecks, h⟩ := h
  cases h
  have hdeclared : P withResources :=
    foldlM_keeps (fun _ _ _ hr h => hadd hnull hr h)
      (foldlM_keeps (fun _ _ _ hr h => hsame (resources_of_addRole h) hr) hempty hroles) hresources
  exact hsame (sameCatalogue_of_setChecks hchecks).resources
    (hsame (resources_of_setDefaultRole hdefault) hdeclared)

end Resources

/-! ## 5. The names of resources -/

/-- Every resource is declared under a name that is not blank. -/
def ProperlyNamed (r : Registry) : Prop :=
  ∀ name, r.hasResource name = true → Text.blank name = false

theorem ProperlyNamed.of_resources_eq (hr : r.ProperlyNamed) (h : r'.resources = r.resources) :
    r'.ProperlyNamed := by
  intro name hname
  rw [hasResource, h] at hname
  exact hr name hname

/-- Adding a resource keeps the names proper. -/
theorem ProperlyNamed.addResource (hr : r.ProperlyNamed) {resource definition : Value}
    (h : r.addResource resource definition = .ok r') : r'.ProperlyNamed := by
  obtain ⟨added, hblank, hcases⟩ := addResource_cases h
  have hput : ∃ m, r'.resources = assign added m r.resources := by
    rcases hcases with ⟨-, rfl⟩ | ⟨d, m, -, -, rfl⟩
    · exact ⟨none, rfl⟩
    · exact ⟨some m, rfl⟩
  obtain ⟨m, hput⟩ := hput
  intro name hname
  rw [hasResource, hput, lookup_assign] at hname
  split at hname
  · rename_i hsame
    rw [hsame]
    exact hblank
  · exact hr name hname

theorem ProperlyNamed.apply (hr : r.ProperlyNamed) (c : Command) : (c.apply r).1.ProperlyNamed :=
  apply_keeps (D := fun _ => True) (fun h hr => hr.of_resources_eq h)
    (fun _ hr h => hr.addResource h) hr (c.everyDefinition_of_forall fun _ => trivial)

theorem properlyNamed_of_build {o : RootOptions} (h : build o = .ok r) : r.ProperlyNamed :=
  build_keeps (D := fun _ => True) (fun h hr => hr.of_resources_eq h)
    (fun _ hr h => hr.addResource h) trivial (fun _ hname => nomatch hname) h

/-- **In every registry that can be come by** the resources are properly named. -/
theorem Reachable.properlyNamed (h : Reachable r) : r.ProperlyNamed := by
  induction h with
  | empty => exact fun name hname => nomatch hname
  | fromOptions h =>
    obtain ⟨o, hbuild⟩ := exists_build_of_fromOptions h
    exact properlyNamed_of_build hbuild
  | step c _ ih => exact ih.apply c

end Registry

end AccessControl
