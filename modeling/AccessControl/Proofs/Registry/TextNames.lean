import AccessControl.Proofs.Registry.Acceptance
import AccessControl.Proofs.Registry.References
import AccessControl.Proofs.Registry.RoleIndex
import AccessControl.Proofs.Value.Order

/-!
# Rulebooks whose names are texts

A name in a rulebook can be any value that can be a key.  What is shown to others are texts, so a
report is made only of a rulebook whose names are texts: its actions, its levels and its
relationships (`Metadata.NamesTexts`).

Nothing has to be asked of the grants.  Validation has compared them with what is declared, and
nothing but a text is the same as a text (`Grant.Within.namesTexts`).

Nor is any name there twice, in the actions, in a grant's actions or in its relationships
(`Registry.Reachable.unrepeated`); whether it holds of the levels of an action does not matter, as
they are an order in which to try and not a set.  So a grant lists one sequence of levels for an
action, if it lists any: `Grant.lists_iff`.
-/

namespace AccessControl

variable {r : Registry} {m : Metadata} {g : Grant}

/-- The actions, the levels and the relationships of the rulebook are texts. -/
structure Metadata.NamesTexts (m : Metadata) : Prop where
  actions : ∀ a ∈ m.actions, a.IsText
  levels : ∀ l ∈ m.levels.map Prod.fst, l.IsText
  relationships : ∀ x ∈ m.relationships, x.IsText

/-- Every rulebook of the registry names texts. -/
def Registry.NamesTexts (r : Registry) : Prop :=
  ∀ resource m, r.metadata? resource = some m → m.NamesTexts

/-- The names in the grant are texts. -/
structure Grant.NamesTexts (g : Grant) : Prop where
  actions : ∀ a ∈ g.permissions.map Prod.fst, a.IsText
  levels : ∀ p ∈ g.permissions, ∀ l ∈ p.2, l.IsText
  relationships : ∀ x ∈ g.relationships, x.IsText

/-- No action is there twice in the grant, and no relationship. -/
structure Grant.Unrepeated (g : Grant) : Prop where
  actions : Value.Unlike (g.permissions.map Prod.fst)
  relationships : Value.Unlike g.relationships

/-- No action is there twice in the rulebook, and no name twice in a grant. -/
structure Metadata.Unrepeated (m : Metadata) : Prop where
  actions : Value.Unlike m.actions
  grants : ∀ e ∈ m.grants, e.2.Unrepeated

/-- Under an action of this name the grant has the levels with these names, in this order. -/
def Grant.Lists (g : Grant) (action : String) (levels : List String) : Prop :=
  ∃ k found, (k, found) ∈ g.permissions ∧ k.text? = some action ∧
    found.map Value.text? = levels.map some

/-- The resource is defined, and this is the name of one of its actions. -/
def Registry.DeclaresAction (r : Registry) (resource action : String) : Prop :=
  ∃ m, r.metadata? resource = some m ∧ ∃ k ∈ m.actions, k.text? = some action

/-- The resources that are defined, in the order of their declaration. -/
def Registry.definedNames (r : Registry) : List String :=
  r.resources.filterMap fun e => e.2.map fun _ => e.1

/-! ## 1. Names are texts -/

/-- A grant that stays within texts has no other names. -/
theorem Grant.Within.namesTexts (hm : m.NamesTexts)
    (h : g.Within m.actions (m.levels.map Prod.fst) m.relationships) : g.NamesTexts := by
  have hknown : ∀ {known : List Value} {v : Value}, (∀ w ∈ known, w.IsText) →
      known.any (Value.same · v) = true → v.IsText := by
    intro known v htexts hv
    obtain ⟨w, hw, hsame⟩ := List.any_eq_true.mp hv
    exact Value.isText_of_same (htexts w hw) hsame
  exact {
    actions := fun a ha => by
      obtain ⟨p, hp, rfl⟩ := List.mem_map.mp ha
      exact hknown hm.actions (h.actions p hp)
    levels := fun p hp l hl => hknown hm.levels (h.levels p hp l hl)
    relationships := fun x hx => hknown hm.relationships (h.relationships x hx) }

theorem Registry.NamesTexts.listsTexts (hnames : r.NamesTexts) (hr : r.Coherent) :
    r.ListsTexts :=
  fun name m hm g hg => ((hr name m hm g hg).namesTexts (hnames name m hm)).levels

/-! ## 2. No name is there twice -/

namespace Definition

variable {isRole : String → Bool} {actions levels relationships : List Value}

/-- Permissions that are read are filed under each action once. -/
theorem unlike_of_readPermissions {acc read : List (Value × List Value)}
    {entries : List (Value × Value)} (hacc : Value.Unlike (acc.map Prod.fst))
    (h : readPermissions actions levels acc entries = .ok read) :
    Value.Unlike (read.map Prod.fst) := by
  induction entries generalizing acc with
  | nil =>
    cases h
    exact hacc
  | cons first rest ih =>
    obtain ⟨key, listed⟩ := first
    rw [readPermissions, bind_eq_ok_iff] at h
    obtain ⟨⟨⟩, -, h⟩ := h
    rw [bind_eq_ok_iff] at h
    obtain ⟨names, -, h⟩ := h
    rw [bind_eq_ok_iff] at h
    obtain ⟨⟨⟩, -, h⟩ := h
    refine ih ?_ h
    rw [keys_put]
    exact hacc.addTo key.name

theorem unrepeated_of_readGrant {entry : Value}
    (h : readGrant actions levels relationships entry = .ok g) : g.Unrepeated := by
  rw [readGrant, bind_eq_ok_iff] at h
  obtain ⟨parts, -, h⟩ := h
  rw [bind_eq_ok_iff] at h
  obtain ⟨entries, -, h⟩ := h
  rw [bind_eq_ok_iff] at h
  obtain ⟨permissions, hpermissions, h⟩ := h
  rw [bind_eq_ok_iff] at h
  obtain ⟨held, -, h⟩ := h
  rw [bind_eq_ok_iff] at h
  obtain ⟨⟨⟩, -, h⟩ := h
  cases h
  have hnone : Value.Unlike (([] : List (Value × List Value)).map Prod.fst) := List.Pairwise.nil
  exact ⟨unlike_of_readPermissions hnone hpermissions, Value.unlike_distinct held⟩

/-- The actions of a rulebook are those that its definition lists, without repetitions. -/
theorem nameSet_of_validate {d : Definition} (h : d.validate isRole = .ok m) :
    nameSet d.actions = .ok m.actions := by
  rw [validate, bind_eq_ok_iff] at h
  obtain ⟨identifier, -, h⟩ := h
  rw [bind_eq_ok_iff] at h
  obtain ⟨actions, hactions, h⟩ := h
  rw [bind_eq_ok_iff] at h
  obtain ⟨relationships, -, h⟩ := h
  rw [bind_eq_ok_iff] at h
  obtain ⟨levels, -, h⟩ := h
  rw [bind_eq_ok_iff] at h
  obtain ⟨entries, -, h⟩ := h
  rw [bind_eq_ok_iff] at h
  obtain ⟨grants, -, h⟩ := h
  cases h
  exact mapError_eq_ok_iff.mp hactions

theorem unrepeated_of_validate {d : Definition} (h : d.validate isRole = .ok m) :
    m.Unrepeated where
  actions := by
    obtain ⟨names, -, hactions⟩ := nameSet_eq_ok_iff.mp (nameSet_of_validate h)
    rw [hactions]
    exact Value.unlike_distinct names
  grants := by
    obtain ⟨-, entries, -, hgrants⟩ := read_of_validate h
    exact fun e he =>
      (forall_mem_readGrants (fun _ _ => unrepeated_of_readGrant) (by simp) hgrants e he).2

end Definition

/-- **In every registry that can be come by, the rulebooks repeat no name.** -/
theorem Registry.Reachable.unrepeated (h : r.Reachable) {resource : String}
    (hm : r.metadata? resource = some m) : m.Unrepeated := by
  obtain ⟨d, known, hvalid, -⟩ := (h.wellFormed_metadata hm).levels
  exact Definition.unrepeated_of_validate hvalid

/-! ## 3. What a grant lists -/

/-- A grant lists for an action what is found under it. -/
theorem Grant.lists_iff (hg : g.NamesTexts) (hunrepeated : g.Unrepeated) {v : Value}
    {action : String} (hv : v.text? = some action) {levels : List String} :
    g.Lists action levels ↔
      ∃ found, Value.find? v g.permissions = some found ∧ levels = found.map Value.spelling := by
  constructor
  · rintro ⟨k, found, hmem, hk, hfound⟩
    exact ⟨found, (Value.find?_eq_some_iff_of_unlike hunrepeated.actions hv).mpr ⟨k, hmem, hk⟩,
      (Value.map_text?_eq_iff (hg.levels _ hmem)).mp hfound⟩
  · rintro ⟨found, hfind, hlevels⟩
    obtain ⟨k, hmem, hk⟩ := (Value.find?_eq_some_iff_of_unlike hunrepeated.actions hv).mp hfind
    exact ⟨k, found, hmem, hk, (Value.map_text?_eq_iff (hg.levels _ hmem)).mpr hlevels⟩

namespace Registry

/-- The grants of a registry whose rulebooks name texts. -/
theorem Reachable.grant_spec (h : r.Reachable) (hnames : r.NamesTexts) {role resource : String}
    (hg : r.grantOn role resource = some g) : g.NamesTexts ∧ g.Unrepeated := by
  obtain ⟨m, hm, hlookup⟩ := grantOn_eq_some_iff.mp hg
  have hmem : (role, g) ∈ m.grants := mem_of_lookup hlookup
  exact ⟨(h.coherent resource m hm _ hmem).namesTexts (hnames resource m hm),
    (h.unrepeated hm).grants _ hmem⟩

/-- An action for which a grant lists levels is an action of the rulebook. -/
theorem Reachable.mem_actions_of_lists (h : r.Reachable) {role resource : String}
    (hm : r.metadata? resource = some m)
    (hg : r.grantOn role resource = some g) {action : String} {levels : List String}
    (hlists : g.Lists action levels) : ∃ k ∈ m.actions, k.text? = some action := by
  obtain ⟨m', hm', hlookup⟩ := grantOn_eq_some_iff.mp hg
  rw [hm] at hm'
  cases hm'
  obtain ⟨k, found, hmem, hk, -⟩ := hlists
  have hwithin := (h.coherent resource m hm _ (mem_of_lookup hlookup)).actions _ hmem
  obtain ⟨known, hknown, hsame⟩ := List.any_eq_true.mp hwithin
  exact ⟨known, hknown, Value.text?_of_same hk hsame⟩

/-- The levels through which a role holds an action on a resource: those of its grant, or none. -/
def levelsOn (r : Registry) (role resource : String) (action : Value) : List Value :=
  ((r.grantOn role resource).bind fun g => Value.find? action g.permissions).getD []

/-- **The levels that a role holds are those of its grant.** -/
theorem heldLevels_eq (h : r.ProperlyNamed) {role resource : String} {m : Metadata}
    (hm : r.metadata? resource = some m) {held asked action : Value}
    (hheld : held.text? = some role) (hasked : asked.text? = some resource)
    (haction : action.IsText) :
    r.heldLevels held asked action = .ok (r.levelsOn role resource action) := by
  have hblank : Text.blank resource = false := by
    refine h resource ?_
    rw [hasResource]
    exact Option.isSome_of_eq_some (Option.join_eq_some_iff.mp hm)
  rw [heldLevels, r.resourceDefinition_of_text? hasked hblank, hm, ok_bind, levelsOn, grantOn, hm,
    Option.bind_some]
  simp only [grantFor?_of_isText m ⟨role, hheld⟩, ok_bind, hheld, Option.bind_some]
  cases m.grants.lookup role with
  | none => rfl
  | some g =>
    simp only [levelsFor, Value.requireKey_of_isText haction, ok_bind]
    rfl

theorem isText_of_mem_levelsOn (h : r.Reachable) (hnames : r.NamesTexts) {role resource : String}
    {action : Value} : ∀ l ∈ r.levelsOn role resource action, l.IsText := by
  intro l hl
  rw [levelsOn] at hl
  cases hg : r.grantOn role resource with
  | none =>
    rw [hg] at hl
    cases hl
  | some g =>
    rw [hg, Option.bind_some] at hl
    cases hfound : Value.find? action g.permissions with
    | none =>
      rw [hfound] at hl
      cases hl
    | some found =>
      rw [hfound] at hl
      obtain ⟨k, hk, -⟩ := Value.mem_of_find? hfound
      exact (h.grant_spec hnames hg).1.levels _ hk l hl

/-- Levels that a role holds are listed by its grant, and what is listed is held. -/
theorem Reachable.levelsOn_iff (h : r.Reachable) (hnames : r.NamesTexts) {role resource : String}
    {action : Value} {name : String} (haction : action.text? = some name) {levels : List String}
    (hne : levels ≠ []) :
    (r.levelsOn role resource action).map Value.spelling = levels ↔
      ∃ g, r.grantOn role resource = some g ∧ g.Lists name levels := by
  rw [levelsOn]
  cases hg : r.grantOn role resource with
  | none =>
    constructor
    · intro hnil
      exact absurd hnil.symm hne
    · rintro ⟨g, hsome, -⟩
      cases hsome
  | some g =>
    obtain ⟨htexts, hunrepeated⟩ := h.grant_spec hnames hg
    rw [Option.bind_some]
    constructor
    · intro hlevels
      refine ⟨g, rfl, (Grant.lists_iff htexts hunrepeated haction).mpr ?_⟩
      cases hfound : Value.find? action g.permissions with
      | none =>
        rw [hfound] at hlevels
        exact absurd hlevels.symm hne
      | some found =>
        rw [hfound] at hlevels
        exact ⟨found, rfl, hlevels.symm⟩
    · rintro ⟨g', hsome, hlists⟩
      cases hsome
      obtain ⟨found, hfound, hlevels⟩ := (Grant.lists_iff htexts hunrepeated haction).mp hlists
      rw [hfound, hlevels]
      rfl

end Registry

end AccessControl
