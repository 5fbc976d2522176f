import AccessControl.Proofs.Registry.InPlace

/-!
# The index of the roles is exact

What a role is granted could be found out by a look at every rulebook.  The report on a role does
not do so: it follows the index from the role to some resources, and has a look at the rulebooks of
these.  This module shows that the report is the same, `roleInfo_exact`.

## Where the two could come apart

The index is written when a rulebook is in order, and before it is in place.  A resource could be
filed that has no rulebook in the end, and then the report on a role would look for a grant that is
not there; or a rulebook could be in place whose resource is not filed, and then the report would
leave its grant out.

`Reachable.mem_filed_iff` says that neither happens: a resource is filed under a role exactly when
its rulebook has an entry for the role.  A resource that is only declared has no rulebook, so it is
not filed.  A definition that is turned down has not been filed either, since a change that fails
writes nothing (`Command.perform_eq`).

## From the sets to the lists

The report is a list.  It is sorted by resources, and no resource is in it twice, because none is
declared twice (`Reachable.nodup_resourceNames`).  Two lists that are increasing in this sense are
the same if they have the same elements, `Increasing.eq_of_mem_iff`.
-/

namespace AccessControl

/-- The names of a table increase from one entry to the next, in the order of their code points.
In particular no name is there twice. -/
def Increasing {α : Type} (table : List (String × α)) : Prop :=
  table.Pairwise fun a b => a.1 < b.1

/-- Increasing tables with the same entries are the same. -/
theorem Increasing.eq_of_mem_iff {α : Type} {xs ys : List (String × α)} (hxs : Increasing xs)
    (hys : Increasing ys) (h : ∀ e, e ∈ xs ↔ e ∈ ys) : xs = ys := by
  have hnodup : ∀ {table : List (String × α)}, Increasing table → table.Nodup := by
    intro table htable
    refine htable.imp fun {a b} hab hsame => ?_
    rw [hsame] at hab
    exact String.lt_irrefl _ hab
  have hperm : xs.Perm ys := (List.perm_ext_iff_of_nodup (hnodup hxs) (hnodup hys)).mpr h
  exact hperm.eq_of_pairwise (fun a b _ _ hab hba => absurd hba (String.lt_asymm hab)) hxs hys

namespace Registry

/-- The grant of a role on a resource, if the resource has a rulebook with an entry for it. -/
def grantOn (r : Registry) (role resource : String) : Option Grant :=
  (r.metadata? resource).bind fun m => m.grants.lookup role

/-- What a role is granted, found by a look at every resource that there is. -/
def scan (r : Registry) (role : String) : List (String × Grant) :=
  r.resources.filterMap fun e =>
    (e.2.bind fun m => m.grants.lookup role).map fun g => (e.1, g)

/-- Grants in the order of the names of their resources. -/
def inOrder (grants : List (String × Grant)) : List (String × Grant) :=
  grants.mergeSort fun a b => decide (a.1 ≤ b.1)

/-- No role is registered under a name that is blank. -/
def ProperRoles (r : Registry) : Prop :=
  ∀ role, r.hasRole role = true → Text.blank role = false

variable {r s : Registry} {role resource : String} {g : Grant}

/-! ## 1. The names of roles and of resources -/

theorem ProperRoles.of_roles_eq (hr : r.ProperRoles) (h : s.roles = r.roles) : s.ProperRoles := by
  intro role hrole
  rw [hasRole, h] at hrole
  exact hr role hrole

theorem ProperRoles.addRole (hr : r.ProperRoles) {name definition : Value}
    (h : r.addRole name definition = .ok s) : s.ProperRoles := by
  rw [Registry.addRole, bind_eq_ok_iff] at h
  obtain ⟨added, hadded, h⟩ := h
  by_cases hnull : definition.isNull = true
  · rw [if_pos hnull] at h
    cases h
  · simp only [if_neg hnull] at h
    split at h
    · cases h
      exact hr
    · cases h
      intro role hrole
      have hmem : role ∈ (r.roles ++ [(added, definition)]).map Prod.fst :=
        isSome_lookup_iff.mp hrole
      rw [List.map_append, List.mem_append] at hmem
      rcases hmem with hold | hnew
      · exact hr role (isSome_lookup_iff.mpr hold)
      · rw [List.mem_singleton.mp hnew]
        exact (requireName_ok hadded).2

theorem roles_of_addResource {name definition : Value} (h : r.addResource name definition = .ok s) :
    s.roles = r.roles := by
  obtain ⟨added, -, ⟨-, rfl⟩ | ⟨d, m, -, -, rfl⟩⟩ := addResource_cases h
  · rfl
  · rfl

theorem roles_of_setDefaultRole {name : Value} {force : Bool}
    (h : r.setDefaultRole name force = .ok s) : s.roles = r.roles := by
  obtain rfl | ⟨added, -, -, rfl⟩ := setDefaultRole_cases h
  · rfl
  · rfl

theorem roles_of_defineAll (r : Registry) (entries : List FeatureEntry) :
    (r.defineAll entries).1.roles = r.roles := by
  induction entries generalizing r with
  | nil => rfl
  | cons e rest ih =>
    rw [defineAll]
    split
    · rfl
    · split
      · rfl
      · rename_i next hnext
        exact (ih next).trans (roles_of_addResource hnext)

theorem ProperRoles.apply (hr : r.ProperRoles) (c : Command) : (c.apply r).1.ProperRoles := by
  cases c with
  | addRole name definition => exact attempt_keeps hr fun _ h => hr.addRole h
  | setDefaultRole name force =>
    exact attempt_keeps hr fun _ h => hr.of_roles_eq (roles_of_setDefaultRole h)
  | addResource name definition =>
    exact attempt_keeps hr fun _ h => hr.of_roles_eq (roles_of_addResource h)
  | initResources options =>
    have hroles := initResources_fst r options
    change (r.initResources options).1.ProperRoles
    rw [hroles]
    exact hr.of_roles_eq (roles_of_defineAll r _)
  | setChecks checks =>
    exact attempt_keeps hr fun _ h => hr.of_roles_eq (sameCatalogue_of_setChecks h).roles
  | setLogging enabled =>
    exact attempt_keeps hr fun _ h => hr.of_roles_eq (sameCatalogue_of_setLogging h).roles
  | setSink sink =>
    exact attempt_keeps hr fun _ h => hr.of_roles_eq (sameCatalogue_of_setSink h).roles
  | setAuthnRefusal refusal =>
    exact attempt_keeps hr fun _ h => hr.of_roles_eq (sameCatalogue_of_setAuthnRefusal h).roles
  | setAuthzRefusal refusal =>
    exact attempt_keeps hr fun _ h => hr.of_roles_eq (sameCatalogue_of_setAuthzRefusal h).roles

theorem properRoles_of_build {o : RootOptions} (h : build o = .ok r) : r.ProperRoles := by
  have hempty : ProperRoles empty := fun _ hrole => nomatch hrole
  rw [build, bind_eq_ok_iff] at h
  obtain ⟨withRoles, hroles, h⟩ := h
  rw [bind_eq_ok_iff] at h
  obtain ⟨withResources, hresources, h⟩ := h
  rw [bind_eq_ok_iff] at h
  obtain ⟨withDefault, hdefault, h⟩ := h
  rw [bind_eq_ok_iff] at h
  obtain ⟨withChecks, hchecks, h⟩ := h
  cases h
  have hdeclared : ProperRoles withResources :=
    foldlM_keeps (fun _ _ _ hr h => hr.of_roles_eq (roles_of_addResource h))
      (foldlM_keeps (fun _ _ _ hr h => hr.addRole h) hempty hroles) hresources
  have hset : ProperRoles withChecks :=
    (hdeclared.of_roles_eq (roles_of_setDefaultRole hdefault)).of_roles_eq
      (sameCatalogue_of_setChecks hchecks).roles
  exact hset.of_roles_eq rfl

/-- In every registry that can be come by the roles have proper names. -/
theorem Reachable.properRoles (h : Reachable r) : r.ProperRoles := by
  induction h with
  | empty => exact fun _ hrole => nomatch hrole
  | fromOptions h =>
    obtain ⟨o, hbuild⟩ := exists_build_of_fromOptions h
    exact properRoles_of_build hbuild
  | step c _ ih => exact ih.apply c

/-- **In every registry that can be come by, no resource is declared twice.** -/
theorem Reachable.nodup_resourceNames (h : Reachable r) : r.resourceNames.Nodup := by
  refine h.invariant (P := fun r => r.resourceNames.Nodup) List.nodup_nil fun r s hr hchange => ?_
  cases hchange with
  | declaration resource hnew => exact nodup_assign hr resource _
  | definition resource d m hnew hvalid => exact nodup_assign hr resource _
  | _ => exact hr

/-! ## 2. What is filed -/

theorem grantOn_eq_some_iff :
    r.grantOn role resource = some g ↔
      ∃ m, r.metadata? resource = some m ∧ m.grants.lookup role = some g :=
  Option.bind_eq_some_iff

/-- A resource that has no rulebook grants nothing. -/
theorem grantOn_of_not_defined (h : r.metadata? resource = none) :
    r.grantOn role resource = none := by
  rw [grantOn, h]
  rfl

/-- A rulebook that is put in place grants what it has, and nothing else is granted otherwise than
before; the index has no part in it. -/
theorem grantOn_assign (r : Registry) (resource : String) (m : Option Metadata)
    (index : List (String × List String)) (role x : String) :
    Registry.grantOn { r with
        resources := assign resource m r.resources
        index := index } role x =
      if x = resource then m.bind fun m => m.grants.lookup role else r.grantOn role x := by
  rw [grantOn, metadata?, lookup_assign]
  split
  · rfl
  · rfl

/-- **A resource is filed under a role exactly when its rulebook has an entry for the role**, in
every registry that can be come by. -/
theorem Reachable.mem_filed_iff (h : Reachable r) :
    resource ∈ filed r.index role ↔ (r.grantOn role resource).isSome = true := by
  refine h.invariant
    (P := fun r => ∀ role x, x ∈ filed r.index role ↔ (r.grantOn role x).isSome = true)
    (fun role x => ?_) (fun r s hr hchange role x => ?_) role resource
  · constructor
    · intro hfiled
      cases hfiled
    · intro hgrant
      cases hgrant
  · cases hchange with
    | role name definition hnew =>
      change x ∈ filed (r.index ++ [(name, [])]) role ↔ _
      rw [filed_append_new]
      exact hr role x
    | defaultRole name force hrole hfree => exact hr role x
    | declaration resource hnew =>
      have hundefined : r.metadata? resource = none := metadata?_eq_none_of_not_declared hnew
      refine (hr role x).trans ?_
      rw [grantOn_assign]
      split
      · rename_i hx
        rw [hx, grantOn_of_not_defined hundefined]
        rfl
      · exact Iff.rfl
    | definition resource d m hnew hvalid =>
      change x ∈ filed (indexResource resource (m.grants.map Prod.fst) r.index) role ↔ _
      rw [mem_filed_indexResource, hr role x, grantOn_assign]
      by_cases hx : x = resource
      · -- so far nothing has been filed for this resource, since it had no rulebook
        rw [if_pos hx, hx, grantOn_of_not_defined hnew, Option.bind_some, isSome_lookup_iff]
        simp only [Option.isSome_none, Bool.false_eq_true, false_or, and_true]
      · rw [if_neg hx]
        simp only [hx, and_false, or_false]
    | hooks checks logging sink authn authz resolver => exact hr role x

/-! ## 3. The scan and the index -/

theorem mem_grantsOf_iff {resources : List String} :
    (resource, g) ∈ r.grantsOf role resources ↔
      resource ∈ resources ∧ r.grantOn role resource = some g := by
  rw [grantsOf, List.mem_filterMap]
  constructor
  · rintro ⟨x, hx, hgrant⟩
    obtain ⟨found, hfound, hpair⟩ := Option.map_eq_some_iff.mp hgrant
    cases hpair
    exact ⟨hx, hfound⟩
  · rintro ⟨hx, hgrant⟩
    exact ⟨resource, hx, Option.map_eq_some_iff.mpr ⟨g, hgrant, rfl⟩⟩

/-- The grants on resources in increasing order increase. -/
theorem increasing_grantsOf {resources : List String}
    (h : resources.Pairwise fun a b => a < b) (role : String) :
    Increasing (r.grantsOf role resources) := by
  refine List.Pairwise.filterMap _ (fun x y hxy a ha b hb => ?_) h
  obtain ⟨-, -, rfl⟩ := Option.map_eq_some_iff.mp ha
  obtain ⟨-, -, rfl⟩ := Option.map_eq_some_iff.mp hb
  exact hxy

/-- If no resource is declared twice, the scan meets every grant. -/
theorem mem_scan_iff (h : r.resourceNames.Nodup) :
    (resource, g) ∈ r.scan role ↔ r.grantOn role resource = some g := by
  rw [scan, List.mem_filterMap]
  constructor
  · rintro ⟨e, he, hgrant⟩
    obtain ⟨found, hfound, hpair⟩ := Option.map_eq_some_iff.mp hgrant
    cases hpair
    rw [grantOn, metadata?, lookup_of_mem h he]
    exact hfound
  · intro hgrant
    obtain ⟨m, hm, -⟩ := grantOn_eq_some_iff.mp hgrant
    refine ⟨(resource, some m), mem_of_lookup (Option.join_eq_some_iff.mp hm), ?_⟩
    rw [grantOn, hm, Option.bind_some] at hgrant
    rw [Option.bind_some, hgrant]
    rfl

/-- What is sorted by names increases, if no name is there twice. -/
theorem increasing_mergeSort {α : Type} (name : α → String) {l : List α} (h : (l.map name).Nodup) :
    (l.mergeSort fun a b => decide (name a ≤ name b)).Pairwise fun a b => name a < name b := by
  have hnodup : ((l.mergeSort fun a b => decide (name a ≤ name b)).map name).Nodup :=
    ((List.mergeSort_perm l _).map name).nodup_iff.mpr h
  exact List.Pairwise.imp₂ (fun a b hle hne => Std.lt_of_le_of_ne hle hne)
    (pairwise_mergeSort_name name l) (List.pairwise_map.mp hnodup)

theorem nodup_scan (h : r.resourceNames.Nodup) (role : String) :
    ((r.scan role).map Prod.fst).Nodup := by
  rw [resourceNames, List.Nodup, List.pairwise_map] at h
  rw [List.Nodup, List.pairwise_map]
  refine List.Pairwise.filterMap _ (fun x y hxy a ha b hb => ?_) h
  obtain ⟨-, -, rfl⟩ := Option.map_eq_some_iff.mp ha
  obtain ⟨-, -, rfl⟩ := Option.map_eq_some_iff.mp hb
  exact hxy

/-- **Following the index gives what the scan gives**, in every registry that can be come by. -/
theorem Reachable.grantsOf_indexed (h : Reachable r) (role : String) :
    r.grantsOf role (r.indexed role) = inOrder (r.scan role) := by
  have hindex : (r.indexed role).Pairwise fun a b => a < b :=
    increasing_mergeSort id (by rw [List.map_id]; exact h.nodup_filed role)
  have hinOrder : Increasing (inOrder (r.scan role)) :=
    increasing_mergeSort Prod.fst (nodup_scan h.nodup_resourceNames role)
  refine (increasing_grantsOf hindex role).eq_of_mem_iff hinOrder fun e => ?_
  obtain ⟨resource, g⟩ := e
  have hindexed : resource ∈ r.indexed role ↔ resource ∈ filed r.index role :=
    (List.mergeSort_perm _ _).mem_iff
  have hscan : (resource, g) ∈ inOrder (r.scan role) ↔ (resource, g) ∈ r.scan role :=
    (List.mergeSort_perm _ _).mem_iff
  rw [mem_grantsOf_iff, hscan, mem_scan_iff h.nodup_resourceNames, hindexed, h.mem_filed_iff]
  constructor
  · exact And.right
  · intro hgrant
    exact ⟨Option.isSome_of_eq_some hgrant, hgrant⟩

/-! ## 4. The report -/

/-- The report on a role is exact.  By whatever value a registered role is named, the report has
its definition and its grants: those that a scan of all resources finds, in the order of the
resources' names.  They are the entries for the role of the rulebooks that are in place, each under
its resource and no resource twice.  On a role that is not registered there is no report, unless
its name is blank, which is an error. -/
structure ReportsExactly (r : Registry) : Prop where
  registered : ∀ (v : Value) (role : String) (definition : Value),
    v.name.text? = some role → r.roles.lookup role = some definition →
      ∃ permissions, r.roleInfo v = .ok (some ⟨role, definition, permissions⟩) ∧
        permissions = inOrder (r.scan role) ∧ Increasing permissions ∧
        ∀ resource g, (resource, g) ∈ permissions ↔
          ∃ m, r.metadata? resource = some m ∧ m.grants.lookup role = some g
  unregistered : ∀ (v : Value) (role : String), v.name.text? = some role →
    Text.blank role = false → r.hasRole role = false → r.roleInfo v = .ok none

/-- The command, carried out on the registry where it stands, ends with success or with an error,
and leaves the registry like this. -/
def Command.Leaves (c : Command) (r s : Registry) : Prop :=
  c.perform r = .ok () s ∨ ∃ fault, c.perform r = .error fault s

/-- What a command leaves is the registry that its other form hands out. -/
theorem Command.Leaves.eq_apply {c : Command} (hr : r.Reachable) (h : c.Leaves r s) :
    s = (c.apply r).1 := by
  rw [Leaves, c.perform_eq hr, Procedure.agreed] at h
  cases houtcome : (c.apply r).2.outcome with
  | ok u =>
    rw [houtcome] at h
    rcases h with h | ⟨fault, h⟩
    · cases h
      rfl
    · cases h
  | error e =>
    rw [houtcome] at h
    rcases h with h | ⟨fault, h⟩
    · cases h
    · cases h
      rfl

/-- A report is made for a name that is proper. -/
theorem roleInfo_of_text? {v : Value} (hname : v.name.text? = some role)
    (hblank : Text.blank role = false) :
    r.roleInfo v = .ok ((r.roles.lookup role).map fun definition =>
      ⟨role, definition, r.grantsOf role (r.indexed role)⟩) := by
  have hrole : requireRole v = .ok role := by
    rw [requireRole, requireName, hname]
    simp only [hblank, Bool.false_eq_true, if_false]
  rw [roleInfo, hrole, ok_bind, pure_eq_ok]

theorem Reachable.reportsExactly (h : r.Reachable) : r.ReportsExactly where
  registered := by
    intro v role definition hname hrole
    have hblank : Text.blank role = false :=
      h.properRoles role (Option.isSome_of_eq_some hrole)
    have hreport := roleInfo_of_text? (r := r) hname hblank
    rw [hrole, Option.map_some, h.grantsOf_indexed] at hreport
    refine ⟨inOrder (r.scan role), hreport, rfl,
      increasing_mergeSort Prod.fst (nodup_scan h.nodup_resourceNames role), fun resource g => ?_⟩
    have hmem : (resource, g) ∈ inOrder (r.scan role) ↔ (resource, g) ∈ r.scan role :=
      (List.mergeSort_perm _ _).mem_iff
    rw [hmem, mem_scan_iff h.nodup_resourceNames, grantOn_eq_some_iff]
  unregistered := by
    intro v role hname hblank hrole
    have hlookup : r.roles.lookup role = none := by
      rw [hasRole, Option.isSome_eq_false_iff, Option.isNone_iff_eq_none] at hrole
      exact hrole
    rw [roleInfo_of_text? hname hblank, hlookup]
    rfl

/-- **The report on a role is exact.**  Let a registry have come about in any way.

* What the index leads to is what a scan of all resources finds, for every role
  (`ReportsExactly`).
* It stays so with every command that is carried out on the registry where it stands, whether it
  succeeds or fails at some step.
* A definition that is turned down leaves nothing in a report: after a command that fails, every
  report is the one from before.  Only the command that supplies the resources of a feature may
  have defined some of them, and the reports are exact about these. -/
theorem roleInfo_exact (h : r.Reachable) :
    r.ReportsExactly ∧
    ∀ (c : Command) (s : Registry), c.Leaves r s →
      s.ReportsExactly ∧
      (¬ c.Succeeds r → (∀ options, c ≠ .initResources options) →
        ∀ role, s.roleInfo role = r.roleInfo role) := by
  refine ⟨h.reportsExactly, fun c s hleaves => ?_⟩
  rw [hleaves.eq_apply h]
  refine ⟨(h.step c).reportsExactly, fun hfails hc role => ?_⟩
  rw [apply_of_fails hfails hc]

/-- The case of the application before and after its users have a rulebook.  As long as they have
none, an administrator is granted nothing, and a rulebook that fails at its second role does not
change this; after that the report has the one entry there is. -/
theorem roleInfo_exact_admin :
    (Rulebook.declared true).Reachable ∧ (Rulebook.registry true).Reachable ∧
    (Command.addResource Rulebook.userMember strangerDefinition.toValue).Leaves
      (Rulebook.declared true) (Rulebook.declared true) ∧
    (Rulebook.declared true).ReportsExactly ∧
    (Rulebook.declared true).roleInfo Role.admin.member =
      .ok (some ⟨Role.admin.name, Role.admin.definition, []⟩) ∧
    (∃ permissions, (Rulebook.registry true).roleInfo Role.admin.member =
        .ok (some ⟨Role.admin.name, Role.admin.definition, permissions⟩) ∧
      (Rulebook.userResource, Rulebook.grantOf .admin) ∈ permissions) ∧
    (Rulebook.registry true).roleInfo (.text "GHOST") = .ok none := by
  have hdeclared : (Rulebook.declared true).Reachable :=
    .fromOptions (Rulebook.fromOptions_rootOptions true)
  have hdefined : (Rulebook.registry true).Reachable := Rulebook.reachable_registry true
  have hleaves : (Command.addResource Rulebook.userMember strangerDefinition.toValue).Leaves
      (Rulebook.declared true) (Rulebook.declared true) := by
    have hrejected : (Rulebook.declared true).addResource Rulebook.userMember
        strangerDefinition.toValue = .error (.unknownRole (.text "STRANGER")) := rfl
    refine Or.inr ⟨.unknownRole (.text "STRANGER"), ?_⟩
    rw [Command.perform, Procedure.addResource_eq, hrejected]
    rfl
  obtain ⟨-, hafter⟩ := roleInfo_exact hdeclared
  obtain ⟨hexact, -⟩ := hafter _ _ hleaves
  obtain ⟨hreports, -⟩ := roleInfo_exact hdefined
  refine ⟨hdeclared, hdefined, hleaves, hexact, ?_, ?_, ?_⟩
  · obtain ⟨permissions, hreport, hscan, -, -⟩ := hexact.registered Role.admin.member
      Role.admin.name Role.admin.definition rfl rfl
    have hnothing : (Rulebook.declared true).scan Role.admin.name = [] := rfl
    rw [hnothing, inOrder, List.mergeSort_nil] at hscan
    rw [hreport, hscan]
  · obtain ⟨permissions, hreport, -, -, hmem⟩ := hreports.registered Role.admin.member
      Role.admin.name Role.admin.definition rfl rfl
    exact ⟨permissions, hreport, (hmem _ _).mpr ⟨Rulebook.metadata, rfl, rfl⟩⟩
  · exact hreports.unregistered (.text "GHOST") "GHOST" rfl (by decide) rfl

end Registry

end AccessControl
