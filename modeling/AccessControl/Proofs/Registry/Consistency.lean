import AccessControl.Proofs.Decision.Grants
import AccessControl.Proofs.Registry.Growth
import AccessControl.Proofs.Registry.RootOptions

/-!
# Which root options make a registry

A registry is built from options by steps: every role is registered, every resource is declared, the
default is set, every check is looked at.  Each step can fail, and the first one that does decides
which fault is reported.  This module says without the steps which options make a registry, which
registry it is, and otherwise which fault is reported.

## Demands

A `Demand` is a condition together with the fault that is reported if it does not hold.  The demands
of options are a list, `RootOptions.demands`, and its order is the order in which they are looked
at: the roles, the resources, the default, the checks.  Options are `RootOptions.Consistent` if all
of them are met (`consistent_iff`), and if not, the fault is the one of the first that is not,
`FirstUnmet`.

`Requires demands P x` says that the step `x` makes these demands: it has a result if all are met,
and then the result satisfies `P`; otherwise it ends with the fault of the first that is not met.
For steps one after the other the demands are put together (`Requires.bind`), so there is one lemma
for each step, and one induction for each loop.

## Where it could break

The loops are not alike.  A role that is registered already is passed over, while a resource that is
declared already is a fault.  So what is demanded of a resource depends on those before it:
`resourceDemands` carries the names that have been seen, and in the induction these are the names in
the registry (`requires_addResources`).  For the roles the same question does not come up, but only
because options that have been read have roles with distinct names; otherwise a registry would have
fewer roles than the options (`requires_addRoles`).

Of a check the function is looked at before the message.
-/

namespace AccessControl

/-! ## 1. Demands -/

/-- Something that is demanded of options, and the fault that is reported if it is not met. -/
structure Demand where
  met : Prop
  otherwise : Fault

/-- The fault is the one of the first demand that is not met. -/
inductive FirstUnmet : List Demand → Fault → Prop
  | here {d : Demand} {later : List Demand} (h : ¬ d.met) : FirstUnmet (d :: later) d.otherwise
  | there {d : Demand} {later : List Demand} {e : Fault} (h : d.met) (hlater : FirstUnmet later e) :
      FirstUnmet (d :: later) e

/-- The step makes these demands in this order: it has a result of this kind if all of them are met,
and otherwise it ends with the fault of the first one that is not. -/
inductive Requires {α : Type} (demands : List Demand) (P : α → Prop) : Except Fault α → Prop
  | accepted {a : α} (hmet : ∀ d ∈ demands, d.met) (ha : P a) : Requires demands P (.ok a)
  | refused {e : Fault} (h : FirstUnmet demands e) : Requires demands P (.error e)

section Demands

variable {α β : Type} {demands later : List Demand} {P : α → Prop} {Q : β → Prop}
  {x : Except Fault α} {e : Fault}

theorem FirstUnmet.append (h : FirstUnmet demands e) (later : List Demand) :
    FirstUnmet (demands ++ later) e := by
  induction h with
  | here hd => exact .here hd
  | there hd _ ih => exact .there hd ih

theorem FirstUnmet.after (h : FirstUnmet later e) (hmet : ∀ d ∈ demands, d.met) :
    FirstUnmet (demands ++ later) e := by
  induction demands with
  | nil => exact h
  | cons d rest ih =>
    rw [List.forall_mem_cons] at hmet
    exact .there hmet.1 (ih hmet.2)

theorem FirstUnmet.not_all (h : FirstUnmet demands e) : ¬ ∀ d ∈ demands, d.met := by
  intro hall
  induction h with
  | here hd => exact hd (hall _ (List.mem_cons_self ..))
  | there _ _ ih => exact ih (List.forall_mem_cons.mp hall).2

/-- There is only one first. -/
theorem FirstUnmet.unique {e' : Fault} (h : FirstUnmet demands e) (h' : FirstUnmet demands e') :
    e = e' := by
  induction h with
  | here hd =>
    cases h' with
    | here _ => rfl
    | there hd' _ => exact absurd hd' hd
  | there hd _ ih =>
    cases h' with
    | here hd' => exact absurd hd hd'
    | there _ hlater => exact ih hlater

theorem requires_ok {a : α} (ha : P a) : Requires [] P (.ok a) :=
  .accepted (fun _ h => nomatch h) ha

/-- A test in front of a step is one more demand. -/
theorem requires_ite {c met : Prop} [Decidable c] (hmet : met ↔ ¬ c)
    (hx : ¬ c → Requires later P x) :
    Requires (⟨met, e⟩ :: later) P (if c then .error e else x) := by
  by_cases hc : c
  · rw [if_pos hc]
    exact .refused (.here fun h => hmet.mp h hc)
  · rw [if_neg hc]
    cases hx hc with
    | accepted hlater ha => exact .accepted (List.forall_mem_cons.mpr ⟨hmet.mpr hc, hlater⟩) ha
    | refused h => exact .refused (.there (hmet.mpr hc) h)

/-- **A chain of steps** makes the demands of the first, and then those of the others. -/
theorem Requires.bind {f : α → Except Fault β} (hx : Requires demands P x)
    (hf : ∀ a, P a → Requires later Q (f a)) : Requires (demands ++ later) Q (x >>= f) := by
  cases hx with
  | refused h => exact .refused (h.append later)
  | @accepted a hmet ha =>
    rw [ok_bind]
    have hy := hf a ha
    generalize f a = y at hy ⊢
    cases hy with
    | refused h => exact .refused (h.after hmet)
    | accepted hlater hb =>
      refine .accepted ?_ hb
      rw [List.forall_mem_append]
      exact ⟨hmet, hlater⟩

/-- What cannot fail any more demands nothing. -/
theorem Requires.bind_ok {f : α → Except Fault β} (hx : Requires demands P x)
    (hf : ∀ a, P a → ∃ b, f a = .ok b ∧ Q b) : Requires demands Q (x >>= f) := by
  rw [← List.append_nil demands]
  refine hx.bind fun a ha => ?_
  obtain ⟨b, hb, hQ⟩ := hf a ha
  rw [hb]
  exact requires_ok hQ

/-- Steps for the elements of a list make the demands of each, one after the other. -/
theorem requires_mapM {f : α → Except Fault β} {demandsOf : α → List Demand} {R : α → β → Prop}
    (hf : ∀ a, Requires (demandsOf a) (R a) (f a)) (items : List α) :
    Requires (items.flatMap demandsOf) (List.Forall₂ R items) (items.mapM f) := by
  induction items with
  | nil => exact requires_ok .nil
  | cons a rest ih =>
    rw [List.mapM_cons, List.flatMap_cons]
    refine (hf a).bind fun b hb => ?_
    exact ih.bind_ok fun results hresults => ⟨b :: results, rfl, .cons hb hresults⟩

/-- A step succeeds if every demand is met, and only then. -/
theorem Requires.exists_ok_iff (h : Requires demands P x) :
    (∃ a, x = .ok a) ↔ ∀ d ∈ demands, d.met := by
  cases h with
  | accepted hmet _ => exact ⟨fun _ => hmet, fun _ => ⟨_, rfl⟩⟩
  | refused h =>
    constructor
    · rintro ⟨a, ha⟩
      cases ha
    · exact fun hall => absurd hall h.not_all

theorem Requires.of_ok {a : α} (h : Requires demands P x) (ha : x = .ok a) :
    P a ∧ ∀ d ∈ demands, d.met := by
  cases h with
  | accepted hmet hP =>
    cases ha
    exact ⟨hP, hmet⟩
  | refused _ => cases ha

/-- A step fails with the fault of the first demand that is not met, and with no other. -/
theorem Requires.error_iff (h : Requires demands P x) :
    x = .error e ↔ FirstUnmet demands e := by
  cases h with
  | accepted hmet _ =>
    constructor
    · intro he
      cases he
    · exact fun hfirst => absurd hmet hfirst.not_all
  | @refused e' hfirst' =>
    constructor
    · intro he
      cases he
      exact hfirst'
    · intro hfirst
      rw [hfirst'.unique hfirst]

end Demands

/-! ## 2. What options demand -/

namespace RootOptions

/-- The name must not be blank. -/
def nameDemand (what name : String) : Demand :=
  ⟨Text.blank name = false, .config (.blank what)⟩

/-- A role has a name and a definition. -/
def roleDemands (role : String × Value) : List Demand :=
  [nameDemand "Role identifier" role.1, ⟨role.2.isNull = false, .config .noRoleDefinition⟩]

/-- A resource has a name, which is none of those before. -/
def resourceDemands (seen : List String) : List String → List Demand
  | [] => []
  | name :: rest =>
    nameDemand "Resource identifier" name :: ⟨name ∉ seen, .definition name .redeclared⟩ ::
      resourceDemands (seen ++ [name]) rest

/-- The default has a name, which is that of one of the roles. -/
def defaultDemands (roles : List String) (name : String) : List Demand :=
  [nameDemand "Role identifier" name, ⟨name ∈ roles, .unknownRole (.text name)⟩]

/-- A field of a check; nothing if the check does not have it. -/
def checkPart (check : Value) (key : String) : Value :=
  (check.field? key).getD .null

/-- A check has a name, a function and a message. -/
def checkDemands (check : Value) : List Demand :=
  [⟨(checkPart check "name").name.IsProperName, .config (.blank "Global check name")⟩,
    ⟨(checkPart check "fn").callable?.isSome = true,
      .config (.notFunction "Global check function")⟩,
    ⟨(checkPart check "message").name.IsProperName, .config (.blank "Global check message")⟩]

/-- Everything that is demanded of options, in the order in which it is looked at: the roles, the
resources, the default, the checks. -/
def demands (o : RootOptions) : List Demand :=
  o.roles.flatMap roleDemands ++ (resourceDemands [] o.resources ++
    (defaultDemands (o.roles.map Prod.fst) o.defaultRole ++ o.checks.flatMap checkDemands))

/-- The options fit together. -/
structure Consistent (o : RootOptions) : Prop where
  roles : ∀ role ∈ o.roles, Text.blank role.1 = false ∧ role.2.isNull = false
  resources : ∀ name ∈ o.resources, Text.blank name = false
  distinct : o.resources.Nodup
  default : Text.blank o.defaultRole = false
  declared : o.defaultRole ∈ o.roles.map Prod.fst
  checks : ∀ check ∈ o.checks, (checkPart check "name").name.IsProperName ∧
    (checkPart check "message").name.IsProperName ∧
    (checkPart check "fn").callable?.isSome = true

theorem forall_met_resourceDemands_iff {seen names : List String} :
    (∀ d ∈ resourceDemands seen names, d.met) ↔
      (∀ name ∈ names, Text.blank name = false) ∧ names.Nodup ∧ ∀ name ∈ names, name ∉ seen := by
  induction names generalizing seen with
  | nil => simp [resourceDemands]
  | cons name rest ih =>
    rw [resourceDemands, List.forall_mem_cons, List.forall_mem_cons, ih, List.nodup_cons]
    simp only [List.forall_mem_cons, List.mem_append, List.mem_singleton, not_or, nameDemand]
    constructor
    · rintro ⟨hblank, hnew, hblanks, hdistinct, hlater⟩
      exact ⟨⟨hblank, hblanks⟩, ⟨fun hmem => (hlater name hmem).2 rfl, hdistinct⟩, hnew,
        fun other hother => (hlater other hother).1⟩
    · rintro ⟨⟨hblank, hblanks⟩, ⟨hnotMem, hdistinct⟩, hnew, hlater⟩
      refine ⟨hblank, hnew, hblanks, hdistinct, fun other hother => ⟨hlater other hother, ?_⟩⟩
      rintro rfl
      exact hnotMem hother

/-- **Options are consistent** if every demand is met. -/
theorem consistent_iff {o : RootOptions} : o.Consistent ↔ ∀ d ∈ o.demands, d.met := by
  have hroles : (∀ d ∈ o.roles.flatMap roleDemands, d.met) ↔
      ∀ role ∈ o.roles, Text.blank role.1 = false ∧ role.2.isNull = false := by
    simp only [List.forall_mem_flatMap, roleDemands, nameDemand, List.forall_mem_cons,
      List.not_mem_nil, false_imp_iff, implies_true, and_true]
  have hchecks : (∀ d ∈ o.checks.flatMap checkDemands, d.met) ↔
      ∀ check ∈ o.checks, (checkPart check "name").name.IsProperName ∧
        (checkPart check "fn").callable?.isSome = true ∧
        (checkPart check "message").name.IsProperName := by
    simp only [List.forall_mem_flatMap, checkDemands, List.forall_mem_cons,
      List.not_mem_nil, false_imp_iff, implies_true, and_true]
  rw [demands, List.forall_mem_append, List.forall_mem_append, List.forall_mem_append, hroles,
    forall_met_resourceDemands_iff, hchecks]
  simp only [defaultDemands, nameDemand, List.forall_mem_cons, List.not_mem_nil, false_imp_iff,
    implies_true, and_true, not_false_eq_true]
  constructor
  · intro h
    refine ⟨h.roles, ⟨h.resources, h.distinct⟩, ⟨h.default, h.declared⟩, fun check hcheck => ?_⟩
    obtain ⟨hname, hmessage, hfn⟩ := h.checks check hcheck
    exact ⟨hname, hfn, hmessage⟩
  · rintro ⟨hroles, ⟨hblanks, hdistinct⟩, ⟨hblank, hdeclared⟩, hchecks⟩
    refine ⟨hroles, hblanks, hdistinct, hblank, hdeclared, fun check hcheck => ?_⟩
    obtain ⟨hname, hfn, hmessage⟩ := hchecks check hcheck
    exact ⟨hname, hmessage, hfn⟩

end RootOptions

/-! ## 3. Steps -/

theorem Value.isProperName_iff {v : Value} {s : String} (hs : v.text? = some s) :
    v.IsProperName ↔ ¬ Text.blank s = true := by
  rw [Bool.not_eq_true]
  constructor
  · rintro ⟨t, ht, hblank⟩
    cases hs.symm.trans ht
    exact hblank
  · exact fun hblank => ⟨s, hs, hblank⟩

namespace Registry

open RootOptions

variable {r : Registry}

/-- The registry with some more roles. -/
def appendRoles (r : Registry) (roles : List (String × Value)) : Registry :=
  { r with roles := r.roles ++ roles, index := r.index ++ roles.map fun role => (role.1, []) }

/-- The registry with some more places for resources. -/
def appendPlaces (r : Registry) (names : List String) : Registry :=
  { r with resources := r.resources ++ names.map fun name => (name, none) }

theorem appendRoles_appendRoles (r : Registry) (roles more : List (String × Value)) :
    (r.appendRoles roles).appendRoles more = r.appendRoles (roles ++ more) := by
  simp only [appendRoles, List.append_assoc, List.map_append]

theorem appendPlaces_appendPlaces (r : Registry) (names more : List String) :
    (r.appendPlaces names).appendPlaces more = r.appendPlaces (names ++ more) := by
  simp only [appendPlaces, List.append_assoc, List.map_append]

theorem resourceNames_appendPlaces (r : Registry) (names : List String) :
    (r.appendPlaces names).resourceNames = r.resourceNames ++ names := by
  simp [resourceNames, appendPlaces, Function.comp_def]

theorem requires_requireName (what : String) (v : Value) :
    Requires [⟨v.name.IsProperName, .config (.blank what)⟩] (fun _ => True)
      (requireName what v) := by
  rw [requireName]
  cases htext : v.name.text? with
  | some s => exact requires_ite (Value.isProperName_iff htext) fun _ => requires_ok trivial
  | none =>
    refine .refused (.here ?_)
    rintro ⟨s, hs, -⟩
    cases htext.symm.trans hs

theorem requires_requireText (what name : String) :
    Requires [nameDemand what name] (fun s => s = name) (requireName what (.text name)) :=
  requires_ite Bool.eq_false_iff fun _ => requires_ok rfl

theorem requires_requireFunction (what : String) (v : Value) :
    Requires [⟨v.callable?.isSome = true, .config (.notFunction what)⟩]
      (fun f => v.callable? = some f) (requireFunction what v) := by
  rw [requireFunction]
  cases hf : v.callable? with
  | some f => exact .accepted (List.forall_mem_singleton.mpr rfl) rfl
  | none => exact .refused (.here Bool.false_ne_true)

/-- Registering a new role. -/
theorem requires_addRole (role : String × Value) (hnew : role.1 ∉ r.roleNames) :
    Requires (roleDemands role) (fun next => next = r.appendRoles [role])
      (r.addRole (.text role.1) role.2) := by
  have hfree : r.hasRole role.1 = false :=
    Bool.eq_false_iff.mpr fun h => hnew (isSome_lookup_iff.mp h)
  rw [addRole]
  refine (requires_requireText _ role.1).bind fun s hs => ?_
  rw [hs]
  refine requires_ite Bool.eq_false_iff fun _ => ?_
  rw [hfree]
  exact requires_ok rfl

/-- Declaring a resource. -/
theorem requires_addResource (r : Registry) (name : String) :
    Requires [nameDemand "Resource identifier" name,
        ⟨name ∉ r.resourceNames, .definition name .redeclared⟩]
      (fun next => next = r.appendPlaces [name]) (r.addResource (.text name) .null) := by
  have hknown : r.hasResource name = true ↔ name ∈ r.resourceNames := isSome_lookup_iff
  rw [addResource]
  refine (requires_requireText _ name).bind fun s hs => ?_
  rw [hs]
  refine requires_ite (not_congr hknown).symm fun hnew => requires_ok ?_
  rw [assign_of_notMem _ (fun h => hnew (hknown.mpr h))]
  rfl

/-- Setting the default of a registry without one. -/
theorem requires_setDefaultRole (hnone : r.defaultRole = none) (name : String) :
    Requires (defaultDemands r.roleNames name)
      (fun next => next = { r with defaultRole := some name })
      (r.setDefaultRole (.text name) false) := by
  have hknown : r.hasRole name = true ↔ name ∈ r.roleNames := isSome_lookup_iff
  rw [setDefaultRole]
  refine (requires_requireText _ name).bind fun s hs => ?_
  rw [hs]
  refine requires_ite (by rw [← hknown]; simp) fun _ => ?_
  rw [hnone]
  exact requires_ok rfl

/-- The check that is kept of a check as it was declared. -/
structure KeptAs (check : Value) (kept : GlobalCheck) : Prop where
  declared : kept.declared = check
  name : kept.name = checkPart check "name"
  message : kept.message = checkPart check "message"
  fn : (checkPart check "fn").callable? = some kept.fn

theorem requires_readCheck (check : Value) :
    Requires (checkDemands check) (KeptAs check) (readCheck check) := by
  rw [readCheck]
  refine (requires_requireName _ (checkPart check "name")).bind fun _ _ => ?_
  refine (requires_requireFunction _ (checkPart check "fn")).bind fun fn hfn => ?_
  refine (requires_requireName _ (checkPart check "message")).bind fun _ _ => ?_
  exact requires_ok ⟨rfl, rfl, rfl, hfn⟩

/-! ## 4. Runs -/

/-- **The roles**, one after the other. -/
theorem requires_addRoles (r : Registry) (roles : List (String × Value))
    (hdistinct : ((r.roles ++ roles).map Prod.fst).Nodup) :
    Requires (roles.flatMap roleDemands) (fun next => next = r.appendRoles roles)
      (roles.foldlM (fun r role => r.addRole (.text role.1) role.2) r) := by
  induction roles generalizing r with
  | nil => exact requires_ok (by simp [appendRoles])
  | cons role rest ih =>
    rw [List.foldlM_cons, List.flatMap_cons]
    refine (requires_addRole role (notMem_of_nodup_append hdistinct)).bind fun next hnext => ?_
    have hroles : next.roles ++ rest = r.roles ++ role :: rest := by
      rw [hnext, List.append_cons]
      rfl
    have hrest : next.appendRoles rest = r.appendRoles (role :: rest) := by
      rw [hnext, appendRoles_appendRoles, List.singleton_append]
    rw [← hroles] at hdistinct
    rw [← hrest]
    exact ih next hdistinct

/-- **The resources**, one after the other. -/
theorem requires_addResources (r : Registry) (names : List String) :
    Requires (resourceDemands r.resourceNames names) (fun next => next = r.appendPlaces names)
      (names.foldlM (fun r name => r.addResource (.text name) .null) r) := by
  induction names generalizing r with
  | nil => exact requires_ok (by simp [appendPlaces])
  | cons name rest ih =>
    rw [List.foldlM_cons]
    refine (requires_addResource r name).bind fun next hnext => ?_
    have hnames : next.resourceNames = r.resourceNames ++ [name] := by
      rw [hnext, resourceNames_appendPlaces]
    have hrest : next.appendPlaces rest = r.appendPlaces (name :: rest) := by
      rw [hnext, appendPlaces_appendPlaces, List.singleton_append]
    rw [← hrest, ← hnames]
    exact ih next

/-- **The checks**, one after the other. -/
theorem requires_setChecks (r : Registry) (checks : List Value) :
    Requires (checks.flatMap checkDemands)
      (fun next => ∃ kept, List.Forall₂ KeptAs checks kept ∧ next = { r with checks := kept })
      (r.setChecks (.list checks)) := by
  rw [setChecks, listElements?]
  exact (requires_mapM requires_readCheck checks).bind_ok fun kept hkept =>
    ⟨_, rfl, kept, hkept, rfl⟩

/-- The registry that options describe, with the checks that are kept. -/
def ofOptions (o : RootOptions) (kept : List GlobalCheck) : Registry where
  roles := o.roles
  resources := o.resources.map fun name => (name, none)
  index := o.roles.map fun role => (role.1, [])
  defaultRole := some o.defaultRole
  checks := kept
  logging := o.logging.getD false
  sink := o.sink.getD (.sink .engineLog)
  authnRefusal := o.authnRefusal.getD (.refusal .unauthenticated)
  authzRefusal := o.authzRefusal.getD (.refusal .unauthorized)
  resolver := some o.resolver

/-- **Building a registry** makes the demands of the options. -/
theorem requires_build {o : RootOptions} (hdistinct : (o.roles.map Prod.fst).Nodup) :
    Requires o.demands
      (fun r => ∃ kept, List.Forall₂ KeptAs o.checks kept ∧ r = ofOptions o kept) (build o) := by
  rw [build]
  refine (requires_addRoles empty o.roles hdistinct).bind fun withRoles hroles => ?_
  have hnone : withRoles.resourceNames = [] := by rw [hroles]; rfl
  rw [← hnone]
  refine (requires_addResources withRoles o.resources).bind fun withPlaces hplaces => ?_
  have hdefault : withPlaces.defaultRole = none := by rw [hplaces, hroles]; rfl
  have hnames : withPlaces.roleNames = o.roles.map Prod.fst := by rw [hplaces, hroles]; rfl
  rw [← hnames]
  refine (requires_setDefaultRole hdefault o.defaultRole).bind fun withDefault hset => ?_
  refine (requires_setChecks withDefault o.checks).bind_ok fun withChecks hchecks => ?_
  obtain ⟨kept, hkept, hchecks⟩ := hchecks
  refine ⟨_, rfl, kept, hkept, ?_⟩
  rw [hchecks, hset, hplaces, hroles]
  rfl

/-! ## 5. What has been built -/

/-- The registry is as the options declare it. -/
structure Declares (r : Registry) (o : RootOptions) : Prop where
  roles : r.roles = o.roles
  roleNames : r.roleNames = o.roles.map Prod.fst
  resourceNames : r.resourceNames = o.resources
  /-- Every resource is a place without a rulebook. -/
  places : ∀ name, r.metadata? name = none
  /-- Of every role there is the definition, and nothing that it is granted. -/
  roleInfo : ∀ role ∈ o.roles, r.roleInfo (.text role.1) = .ok (some ⟨role.1, role.2, []⟩)
  /-- Whatever value is asked for as a role. -/
  permissions : ∀ v info, r.roleInfo v = .ok (some info) → info.permissions = []
  defaultRole : r.defaultRole = some o.defaultRole
  checks : List.Forall₂ KeptAs o.checks r.checks
  resolver : r.resolver = some o.resolver
  logging : r.logging = o.logging.getD false
  sink : r.sink = o.sink.getD (.sink .engineLog)
  authnRefusal : r.authnRefusal = o.authnRefusal.getD (.refusal .unauthenticated)
  authzRefusal : r.authzRefusal = o.authzRefusal.getD (.refusal .unauthorized)

theorem grantsOf_of_no_metadata (hnone : ∀ name, r.metadata? name = none) (role : String)
    (resources : List String) : r.grantsOf role resources = [] := by
  rw [grantsOf, List.filterMap_eq_nil_iff]
  intro resource _
  rw [hnone, Option.bind_none, Option.map_none]

theorem declares_ofOptions {o : RootOptions} (hdistinct : (o.roles.map Prod.fst).Nodup)
    (hblank : ∀ role ∈ o.roles, Text.blank role.1 = false) {kept : List GlobalCheck}
    (hkept : List.Forall₂ KeptAs o.checks kept) : (ofOptions o kept).Declares o := by
  have hnone : ∀ name, (ofOptions o kept).metadata? name = none := by
    intro name
    rw [metadata?]
    cases hlookup : (ofOptions o kept).resources.lookup name with
    | none => rfl
    | some m =>
      obtain ⟨declared, -, hentry⟩ := List.mem_map.mp (mem_of_lookup hlookup)
      rw [← (Prod.mk.inj hentry).2]
      rfl
  exact {
    roles := rfl
    roleNames := rfl
    resourceNames := by simp [Registry.resourceNames, ofOptions, Function.comp_def]
    places := hnone
    roleInfo := fun role hrole => by
      have hfound : (ofOptions o kept).roles.lookup role.1 = some role.2 :=
        lookup_of_mem hdistinct hrole
      rw [Registry.roleInfo, requireRole, requireName_text (hblank role hrole), ok_bind, hfound,
        grantsOf_of_no_metadata hnone]
      rfl
    permissions := fun v info h => by
      rw [Registry.roleInfo, bind_eq_ok_iff] at h
      obtain ⟨name, -, h⟩ := h
      obtain ⟨definition, -, rfl⟩ := Option.map_eq_some_iff.mp (Except.ok.inj h)
      exact grantsOf_of_no_metadata hnone ..
    defaultRole := rfl
    checks := hkept
    resolver := rfl
    logging := rfl
    sink := rfl
    authnRefusal := rfl
    authzRefusal := rfl }

/-- Once options have been read, building is all that is left. -/
theorem outcome_fromOptions {o : RootOptions} {v : Value} (h : RootOptions.parse v = .ok o) :
    (fromOptions v).outcome = build o := by
  rw [fromOptions, h]
  simp only [Except.bind]
  cases build o <;> rfl

/-- **Exactly the consistent options make a registry.**  Let options be given that have been
validated.

* They make a registry if they are consistent, and only then.
* The registry is as they declare it.
* The fault that is reported, if there is one, is that of the first demand that is not met.

In whatever form the options are given, it comes to the same. -/
theorem fromOptions_accepts_iff_consistent {o : RootOptions} (ho : o.Validated) :
    ((∃ r, (fromOptions o.toValue).outcome = .ok r) ↔ o.Consistent) ∧
    (∀ r, (fromOptions o.toValue).outcome = .ok r → r.Declares o) ∧
    (∀ e, (fromOptions o.toValue).outcome = .error e ↔ FirstUnmet o.demands e) ∧
    ∀ v, RootOptions.parse v = .ok o → fromOptions v = fromOptions o.toValue := by
  have hparse : RootOptions.parse o.toValue = .ok o := parse_toValue ho
  have hrequires : Requires o.demands _ (build o) := requires_build ho.distinct
  rw [outcome_fromOptions hparse]
  refine ⟨hrequires.exists_ok_iff.trans consistent_iff.symm, ?_, fun e => hrequires.error_iff, ?_⟩
  · intro r hr
    obtain ⟨⟨kept, hkept, rfl⟩, hmet⟩ := hrequires.of_ok hr
    have hconsistent : o.Consistent := consistent_iff.mpr hmet
    exact declares_ofOptions ho.distinct (fun role hrole => (hconsistent.roles role hrole).1) hkept
  · intro v hv
    rw [fromOptions, fromOptions, hv, hparse]

/-- The options of a shop with two roles and a check whose name is a member of an enumeration. -/
def shop (resources : List String) (defaultRole : String) : RootOptions where
  roles := [("CLERK", .int 1), ("OWNER", .int 0)]
  defaultRole := defaultRole
  resources := resources
  resolver := .resolver .directory
  checks := [checkRecord (.member "Checks" "ACTIVE" (.text "Active")) (.text "not active")
    (.callable (.rule .activeAccount))]
  logging := some true
  sink := none
  authnRefusal := none
  authzRefusal := some (.refusal .httpUnauthorized)

/-- The case of a shop.  With two resources and a declared default there is a registry.  With a
resource that is repeated and a default that nobody has declared there are two faults, and the
repetition is the one that is reported. -/
theorem fromOptions_accepts_shop :
    (shop ["Order", "Invoice"] "CLERK").Validated ∧ (shop ["Order", "Invoice"] "CLERK").Consistent ∧
    (∃ r, (fromOptions (shop ["Order", "Invoice"] "CLERK").toValue).outcome = .ok r ∧
      r.Declares (shop ["Order", "Invoice"] "CLERK")) ∧
    (shop ["Order", "Order"] "GUEST").Validated ∧ ¬ (shop ["Order", "Order"] "GUEST").Consistent ∧
    (fromOptions (shop ["Order", "Order"] "GUEST").toValue).outcome =
      .error (.definition "Order" .redeclared) := by
  have hchecks : ∀ check ∈ (shop [] "").checks, ∃ fields, check = .record .check fields :=
    List.forall_mem_singleton.mpr ⟨_, rfl⟩
  have hvalid : (shop ["Order", "Invoice"] "CLERK").Validated :=
    ⟨List.cons_ne_nil _ _, by decide, by decide, hchecks⟩
  have hvalid' : (shop ["Order", "Order"] "GUEST").Validated :=
    ⟨List.cons_ne_nil _ _, by decide, by decide, hchecks⟩
  have hconsistent : (shop ["Order", "Invoice"] "CLERK").Consistent := {
    roles := by decide
    resources := by decide
    distinct := by decide
    default := by decide
    declared := by decide
    checks := List.forall_mem_singleton.mpr ⟨⟨"Active", rfl, rfl⟩, ⟨"not active", rfl, rfl⟩, rfl⟩ }
  obtain ⟨haccepts, hdeclares, -⟩ := fromOptions_accepts_iff_consistent hvalid
  obtain ⟨hrefuses, -, hfault, -⟩ := fromOptions_accepts_iff_consistent hvalid'
  obtain ⟨r, hr⟩ := haccepts.mpr hconsistent
  -- the roles and the first resource are in order, the second resource is not new
  have hfirst : FirstUnmet (shop ["Order", "Order"] "GUEST").demands
      (.definition "Order" .redeclared) :=
    .there rfl (.there rfl (.there rfl (.there rfl (.there rfl (.there (by decide)
      (.there rfl (.here (by decide))))))))
  have hrefused := (hfault _).mpr hfirst
  refine ⟨hvalid, hconsistent, ⟨r, hr, hdeclares r hr⟩, hvalid', ?_, hrefused⟩
  intro h
  obtain ⟨r, hr⟩ := hrefuses.mpr h
  cases hr.symm.trans hrefused

end Registry

end AccessControl
