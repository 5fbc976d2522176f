import AccessControl.Http.UserRoutes
import AccessControl.Proofs.Decision.Agreement
import AccessControl.Proofs.Registry.Index
import AccessControl.Proofs.Registry.Permanence

/-!
# No name leads nowhere

A registry is full of names of things that are kept elsewhere in it.  The default role and the
grants name roles, the index does too, and within a rulebook the grants name actions, levels and
relationships.  The code that decides follows these names without care for what to do when there
is nothing at the other end; at best there is a branch that nobody expects to be taken.

## What is kept

`Registry.WellFormed` says that every name leads somewhere, and every registry that can be come by
is well formed: `Registry.Reachable.wellFormed`.  There are three parts, with an invariant each.

* The default role is set only to a registered role, and no role is ever removed.
* The index gets an entry together with every role.  A rulebook that is put in place files its
  resource under the roles that it names, and since validation knows these there is no need for a
  new entry.
* A rulebook has been validated against the roles of the time.  There are only more of them later.

## Two branches that are never taken

A level that a grant lists for an action has an entry in the rulebook.  So an instance query never
meets a level without a function, and neither does the list of the users that are visible, which
looks for the levels that the query of levels has given: `names_lead_somewhere`.
-/

namespace AccessControl

variable {r s : Registry} {m : Metadata} {d : Definition} {role action : Value}

/-- The definition declares the level: one of its entries has this function, and this priority as
a whole number. -/
def Definition.Declares (d : Definition) (l : AccessLevel) : Prop :=
  ∃ entries, d.levels.entries? = some entries ∧
    ∃ e ∈ entries, levelParts e.2 = (.callable l.fn, .int l.priority)

/-- The names in a rulebook lead somewhere, with these roles: the grants are grants of such roles
and stay within what the rulebook declares, and the levels are those of an accepted definition,
which declares a function and a priority for each. -/
structure Metadata.WellFormed (m : Metadata) (isRole : String → Bool) : Prop where
  roles : ∀ e ∈ m.grants, isRole e.1 = true
  coherent : m.Coherent
  levels : ∃ (d : Definition) (known : String → Bool), d.validate known = .ok m ∧
    ∀ l ∈ m.levels, d.Declares l.2

/-- The names in a registry lead somewhere. -/
structure Registry.WellFormed (r : Registry) : Prop where
  defaultRole : ∀ role, r.defaultRole = some role → r.hasRole role = true
  index : r.index.map Prod.fst = r.roleNames
  rulebooks : ∀ name m, r.metadata? name = some m → m.WellFormed r.hasRole

/-! ## 1. Rulebooks -/

namespace Definition

/-- A level that is read has the function and the priority of its entry. -/
theorem levelParts_of_readLevel {name entry : Value} {l : AccessLevel}
    (h : readLevel name entry = .ok l) :
    levelParts entry = (.callable l.fn, .int l.priority) := by
  have hcallable : ∀ (v : Value) f, v.callable? = some f → v = .callable f := by
    intro v f hv
    cases v with
    | callable g =>
      cases hv
      rfl
    | _ => cases hv
  have hpriority : ∀ (v : Value) n, priority? v = some n → v = .int n := by
    intro v n hv
    cases v with
    | int k =>
      rw [priority?] at hv
      split at hv
      · rename_i hk
        cases hv
        rw [Int.toNat_of_nonneg hk]
      · cases hv
    | _ => cases hv
  rw [readLevel] at h
  split at h
  · cases h
  · rename_i f hf
    split at h
    · cases h
    · rename_i n hn
      cases h
      exact Prod.ext (hcallable _ f hf) (hpriority _ n hn)

/-- The levels that are read are those of the entries. -/
theorem exists_entry_of_readLevels {acc levels : List (Value × AccessLevel)}
    {all entries : List (Value × Value)} (hsub : entries ⊆ all)
    (hacc : ∀ l ∈ acc, ∃ e ∈ all, levelParts e.2 = (.callable l.2.fn, .int l.2.priority))
    (h : readLevels acc entries = .ok levels) :
    ∀ l ∈ levels, ∃ e ∈ all, levelParts e.2 = (.callable l.2.fn, .int l.2.priority) := by
  induction entries generalizing acc with
  | nil =>
    cases h
    exact hacc
  | cons first rest ih =>
    obtain ⟨key, entry⟩ := first
    rw [readLevels, bind_eq_ok_iff] at h
    obtain ⟨level, hlevel, h⟩ := h
    rw [bind_eq_ok_iff] at h
    obtain ⟨-, -, h⟩ := h
    have hfirst : (key, entry) ∈ all := hsub (List.mem_cons_self ..)
    have hnext : ∀ l ∈ Value.put key.name level acc,
        True ∧ ∃ e ∈ all, levelParts e.2 = (.callable l.2.fn, .int l.2.priority) :=
      Value.forall_mem_put (K := fun _ => True)
        (V := fun l : AccessLevel => ∃ e ∈ all, levelParts e.2 = (.callable l.fn, .int l.priority))
        trivial ⟨_, hfirst, levelParts_of_readLevel hlevel⟩ fun l hl => ⟨trivial, hacc l hl⟩
    exact ih (fun e he => hsub (List.mem_cons_of_mem _ he)) (fun l hl => (hnext l hl).2) h

/-- **The names in a rulebook lead somewhere**, with the roles that it has been validated
against. -/
theorem wellFormed_of_validate {isRole : String → Bool} (h : d.validate isRole = .ok m) :
    m.WellFormed isRole where
  roles := isRole_of_validate h
  coherent := coherent_of_validate h
  levels := by
    obtain ⟨hlevels, -⟩ := read_of_validate h
    rw [levelsOf] at hlevels
    split at hlevels
    · cases hlevels
    · rename_i entries hentries
      have hread := exists_entry_of_readLevels (List.Subset.refl _) (by simp) hlevels
      exact ⟨d, isRole, h, fun l hl => ⟨entries, hentries, hread l hl⟩⟩

end Definition

/-- A rulebook does not mind that there are more roles. -/
theorem Metadata.WellFormed.mono {isRole isRole' : String → Bool} (h : m.WellFormed isRole)
    (hmore : ∀ role, isRole role = true → isRole' role = true) : m.WellFormed isRole' where
  roles := fun e he => hmore _ (h.roles e he)
  coherent := h.coherent
  levels := h.levels

/-! ## 2. Registries -/

namespace Registry

theorem Extends.hasRole (h : r.Extends s) {role : String} (hrole : r.hasRole role = true) :
    s.hasRole role = true := by
  rw [Registry.hasRole, h.lookup_roles hrole]
  exact hrole

/-- The default role is registered. -/
theorem Reachable.hasRole_defaultRole (h : Reachable r) {role : String}
    (hrole : r.defaultRole = some role) : r.hasRole role = true := by
  refine h.invariant (P := fun r => ∀ role, r.defaultRole = some role → r.hasRole role = true)
    (fun _ hnone => by cases hnone) (fun r s hr hchange role hrole => ?_) role hrole
  have hkept := fun hold => (extends_of_change hchange).hasRole (hr role hold)
  cases hchange with
  | role name definition hnew => exact hkept hrole
  | defaultRole name force hname hfree =>
    cases hrole
    exact hname
  | declaration resource hnew => exact hkept hrole
  | definition resource d m hnew hvalid => exact hkept hrole
  | hooks checks logging sink authn authz resolver => exact hkept hrole

/-- The index has an entry for every role, in their order, and no other entry. -/
theorem Reachable.keys_index (h : Reachable r) : r.index.map Prod.fst = r.roleNames := by
  refine h.invariant (P := fun r => r.index.map Prod.fst = r.roleNames) rfl
    fun r s hr hchange => ?_
  cases hchange with
  | role name definition hnew =>
    rw [roleNames, List.map_append, List.map_append, hr]
    rfl
  | defaultRole name force hname hfree => exact hr
  | declaration resource hnew => exact hr
  | definition resource d m hnew hvalid =>
    -- filing under a role that is not there would make an entry for it
    have hknown : ∀ role ∈ m.grants.map Prod.fst, role ∈ r.index.map Prod.fst := by
      intro role hrole
      obtain ⟨e, he, rfl⟩ := List.mem_map.mp hrole
      have hregistered : r.hasRole e.1 = true := Definition.isRole_of_validate hvalid e he
      rw [hr]
      exact isSome_lookup_iff.mp hregistered
    exact (keys_indexResource hknown).trans hr
  | hooks checks logging sink authn authz resolver => exact hr

/-- Every rulebook is well formed. -/
theorem Reachable.wellFormed_metadata (h : Reachable r) {name : String}
    (hm : r.metadata? name = some m) : m.WellFormed r.hasRole := by
  refine h.invariant (P := fun r => ∀ name m, r.metadata? name = some m → m.WellFormed r.hasRole)
    (fun _ _ hnone => by cases hnone) (fun r s hr hchange name m hm => ?_) name m hm
  have hmore : ∀ role, r.hasRole role = true → s.hasRole role = true := fun _ =>
    (extends_of_change hchange).hasRole
  rcases metadata?_of_change hchange hm with hold | ⟨d, hd⟩
  · exact (hr name m hold).mono hmore
  · exact (Definition.wellFormed_of_validate hd).mono hmore

/-- **The names in a registry lead somewhere.** -/
theorem Reachable.wellFormed (h : Reachable r) : r.WellFormed where
  defaultRole := fun _ => h.hasRole_defaultRole
  index := h.keys_index
  rulebooks := fun _ _ => h.wellFormed_metadata

end Registry

/-! ## 3. Following the names -/

/-- **A level that is held has an entry in the rulebook**, in the one that it is held by. -/
theorem Registry.Coherent.exists_level (hr : r.Coherent) {resource level : Value}
    {found : List Value} (hheld : r.heldLevels role resource action = .ok found)
    (hlevel : level ∈ found) :
    ∃ m l, r.resourceDefinition resource = .ok (some m) ∧ Value.find? level m.levels = some l := by
  obtain ⟨name, m, g, a, hm, hdef, hg, ha⟩ := exists_listed_of_heldLevels hheld hlevel
  have hlisted := (hr name m hm g hg).levels (a, found) ha level hlevel
  obtain ⟨l, hl⟩ := Value.exists_find?_of_any hlisted
  exact ⟨m, l, hdef, hl⟩

/-- **Every name leads somewhere.**  Let a registry have come about in any way.

* The default role is registered, the index has exactly the roles as its keys, and every rulebook
  is well formed.
* A level that is found for an action, in the grant of a role on a resource, has an entry in the
  rulebook: the loop over the levels meets none without a function.
* The levels that a query about users is answered with are levels of the rulebook of users, so
  each of them is there when the users are listed. -/
theorem names_lead_somewhere (h : r.Reachable) :
    r.WellFormed ∧
    (∀ (resource role action : Value) (m : Metadata) (g : Grant) (found : List Value),
      r.resourceDefinition resource = .ok (some m) → grantFor? m role = .ok (some g) →
      levelsFor g action = .ok found →
        ∀ level ∈ found, ∃ l, Value.find? level m.levels = some l) ∧
    ∀ (i : Interpretation) (context action : Value) (found : List Value),
      ((Query.levels Rulebook.userMember action).decide i r context).outcome =
        .ok (.levels (some found)) →
      ∀ level ∈ found, ∃ l, Value.find? level (Http.UserRoutes.userLevels r) = some l := by
  refine ⟨h.wellFormed, ?_, ?_⟩
  · intro resource role action m g found hdef hgrant hfound level hlevel
    have hheld : r.heldLevels role resource action = .ok found := by
      rw [Registry.heldLevels, hdef, ok_bind]
      simp only [hgrant, ok_bind, hfound]
    obtain ⟨m', l, hdef', hl⟩ := h.coherent.exists_level hheld hlevel
    rw [hdef] at hdef'
    cases hdef'
    exact ⟨l, hl⟩
  · intro i context action found hanswer level hlevel
    obtain ⟨hheld, -⟩ := held_of_levels hanswer
    obtain ⟨m, l, hdef, hl⟩ := h.coherent.exists_level hheld hlevel
    have hname : r.resourceDefinition Rulebook.userMember.name =
        .ok (r.metadata? Rulebook.userResource) := r.resourceDefinition_of_text? rfl rfl
    rw [hname] at hdef
    refine ⟨l, ?_⟩
    rw [Http.UserRoutes.userLevels, Except.ok.inj hdef]
    exact hl

/-- The case of an administrator who lists the users, in the registry of the application: the one
level that the query is answered with is found wherever it is looked for. -/
theorem names_lead_somewhere_admin :
    (Rulebook.registry true).Reachable ∧ (Rulebook.registry true).WellFormed ∧
    (∃ l, Value.find? (Rulebook.levelName .byRank) Rulebook.metadata.levels = some l) ∧
    ((Query.levels Rulebook.userMember UserAction.list.member).decide .standard
      (Rulebook.registry true) adminContext).outcome =
        .ok (.levels (some [Rulebook.levelName .byRank])) ∧
    ∃ l, Value.find? (Rulebook.levelName .byRank)
      (Http.UserRoutes.userLevels (Rulebook.registry true)) = some l := by
  have hreachable := Rulebook.reachable_registry true
  obtain ⟨hwellFormed, hfound, hlisted⟩ := names_lead_somewhere hreachable
  have hgrant : grantFor? Rulebook.metadata (.text Role.admin.name) =
      .ok (some (Rulebook.grantOf .admin)) := rfl
  have hlevels : levelsFor (Rulebook.grantOf .admin) UserAction.list.member.name =
      .ok [Rulebook.levelName .byRank] := rfl
  have hanswer : ((Query.levels Rulebook.userMember UserAction.list.member).decide .standard
      (Rulebook.registry true) adminContext).outcome =
        .ok (.levels (some [Rulebook.levelName .byRank])) := rfl
  exact ⟨hreachable, hwellFormed,
    hfound Rulebook.userMember.name _ _ _ _ _ rfl hgrant hlevels _ (List.mem_singleton_self _),
    hanswer, hlisted _ _ _ _ hanswer _ (List.mem_singleton_self _)⟩

end AccessControl
