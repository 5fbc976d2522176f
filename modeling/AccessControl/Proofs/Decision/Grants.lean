import AccessControl.Proofs.Decision.Screening
import AccessControl.Proofs.Outcome

/-!
# The levels that a role holds

Three of the four questions begin in the same way: the rulebook of the resource is looked up, in
it the grant of the role, and in the grant the levels of the action.  At each of the three steps
there may be nothing, and then the question is answered at once.  `Registry.heldLevels` is this
common beginning, with "nothing" as the empty list.

* `lookUp_of_held`, `held_of_lookUp`: a question that begins like this is answered from the levels
  held, or before they are looked at.
* `isText_of_heldLevels`: the levels held are texts if the rulebooks list texts.
* `heldLevels_of_texts`: for names that are texts the levels are always known.
-/

namespace AccessControl

variable {i : Interpretation} {r : Registry} {context role resource action : Value}

/-- Every level that a rulebook of the registry lists is a text. -/
def Registry.ListsTexts (r : Registry) : Prop :=
  ∀ name m, r.metadata? name = some m →
    ∀ g ∈ m.grants, ∀ p ∈ g.2.permissions, ∀ l ∈ p.2, l.IsText

/-- The value is the name of a resource: a text that is not blank. -/
def Value.IsProperName (v : Value) : Prop :=
  ∃ s, v.text? = some s ∧ Text.blank s = false

/-- The levels through which a role holds an action on a resource; none if the resource is not
defined, or if the role has no grant on it, or if the grant does not have the action. -/
def Registry.heldLevels (r : Registry) (role resource action : Value) :
    Except Fault (List Value) := do
  match ← r.resourceDefinition resource with
  | none => return []
  | some m =>
    match ← grantFor? m role with
    | none => return []
    | some g => levelsFor g action

/-- The beginning that the questions have in common: the rulebook is looked up, then the grant,
then the levels.  It says what to do if there is no rulebook, if there is no grant, and once the
levels are known. -/
def Registry.lookUp {α : Type} (r : Registry) (role resource action : Value)
    (noRulebook : Except Fault α) (noGrant : Metadata → Except Fault α)
    (answer : Metadata → List Value → Except Fault α) : Except Fault α := do
  match ← r.resourceDefinition resource with
  | none => noRulebook
  | some m =>
    match ← grantFor? m role with
    | none => noGrant m
    | some g =>
      let found ← levelsFor g action
      answer m found

/-! ## 1. Lists of texts -/

theorem joinTexts_of_isText {names : List Value} (h : ∀ v ∈ names, v.IsText) (place : Nat) :
    ∃ parts, joinTexts place names = .ok parts := by
  induction names generalizing place with
  | nil => exact ⟨[], rfl⟩
  | cons v rest ih =>
    rw [List.forall_mem_cons] at h
    obtain ⟨s, hs⟩ := h.1
    obtain ⟨parts, hparts⟩ := ih h.2 (place + 1)
    refine ⟨s :: parts, ?_⟩
    rw [joinTexts, hs, hparts]
    rfl

/-- Texts can be joined. -/
theorem joined_of_isText {names : List Value} (h : ∀ v ∈ names, v.IsText) :
    ∃ s, joined names = .ok s := by
  obtain ⟨parts, hparts⟩ := joinTexts_of_isText h 0
  exact ⟨Value.commaSeparated parts, by rw [joined, hparts]⟩

/-- The unknown ones among texts are those that no known name is the same as. -/
theorem unknownNames_of_isText (known : List Value) {names : List Value}
    (h : ∀ v ∈ names, v.IsText) :
    unknownNames known names = .ok (names.filter fun v => !known.any (Value.same · v)) := by
  induction names with
  | nil => rfl
  | cons v rest ih =>
    rw [List.forall_mem_cons] at h
    rw [unknownNames, Value.requireKey_of_isText h.1, ih h.2, ok_bind, ok_bind, pure_eq_ok,
      List.filter_cons]
    cases known.any (Value.same · v) <;> rfl

/-! ## 2. Looking up -/

theorem grantFor?_of_isText (m : Metadata) (h : role.IsText) :
    grantFor? m role = .ok (role.text?.bind fun s => m.grants.lookup s) := by
  rw [grantFor?, Value.requireKey_of_isText h, ok_bind, pure_eq_ok]

/-- A grant that is found is one of the rulebook. -/
theorem mem_grants_of_grantFor? {m : Metadata} {g : Grant} (h : grantFor? m role = .ok (some g)) :
    ∃ s, (s, g) ∈ m.grants := by
  rw [grantFor?, bind_eq_ok_iff] at h
  obtain ⟨-, -, h⟩ := h
  obtain ⟨s, -, hs⟩ := Option.bind_eq_some_iff.mp (Except.ok.inj h)
  obtain ⟨l₁, l₂, hsplit, -⟩ := List.lookup_eq_some_iff.mp hs
  rw [hsplit]
  exact ⟨s, List.mem_append_right _ (List.mem_cons_self ..)⟩

/-- Levels that are found, if there are any, are those listed for the action. -/
theorem find?_of_levelsFor {g : Grant} {found : List Value} (h : levelsFor g action = .ok found)
    (hne : found ≠ []) : Value.find? action g.permissions = some found := by
  rw [levelsFor, bind_eq_ok_iff] at h
  obtain ⟨-, -, h⟩ := h
  cases hfind : Value.find? action g.permissions with
  | none =>
    rw [hfind] at h
    cases h
    exact absurd rfl hne
  | some levels =>
    rw [hfind] at h
    cases h
    rfl

/-- Levels that are found are those of an action of the grant. -/
theorem mem_permissions_of_levelsFor {g : Grant} {found : List Value} {l : Value}
    (h : levelsFor g action = .ok found) (hl : l ∈ found) : ∃ a, (a, found) ∈ g.permissions := by
  obtain ⟨k, hk, -⟩ := Value.mem_of_find? (find?_of_levelsFor h (List.ne_nil_of_mem hl))
  exact ⟨k, hk⟩

section LookUp

variable {α : Type} {noRulebook : Except Fault α} {noGrant : Metadata → Except Fault α}
  {answer : Metadata → List Value → Except Fault α} {found : List Value}

/-- When the levels held are known, a question is answered from them, or before they are looked
at; in this case none are held. -/
theorem lookUp_of_held (h : r.heldLevels role resource action = .ok found) :
    (found = [] ∧ (r.lookUp role resource action noRulebook noGrant answer = noRulebook ∨
      ∃ m, r.lookUp role resource action noRulebook noGrant answer = noGrant m)) ∨
    ∃ m, r.resourceDefinition resource = .ok (some m) ∧
      r.lookUp role resource action noRulebook noGrant answer = answer m found := by
  rw [Registry.heldLevels, bind_eq_ok_iff] at h
  obtain ⟨defined, hdef, h⟩ := h
  rw [Registry.lookUp, hdef, ok_bind]
  cases defined with
  | none =>
    cases h
    exact Or.inl ⟨rfl, Or.inl rfl⟩
  | some m =>
    rw [bind_eq_ok_iff] at h
    obtain ⟨granted, hgrant, h⟩ := h
    simp only [hgrant, ok_bind]
    cases granted with
    | none =>
      cases h
      exact Or.inl ⟨rfl, Or.inr ⟨m, rfl⟩⟩
    | some g =>
      simp only [h, ok_bind]
      exact Or.inr ⟨m, rfl, rfl⟩

/-- A question that is answered has found the levels held. -/
theorem held_of_lookUp {f : α}
    (h : r.lookUp role resource action noRulebook noGrant answer = .ok f) :
    ∃ found, r.heldLevels role resource action = .ok found := by
  rw [Registry.lookUp, bind_eq_ok_iff] at h
  obtain ⟨defined, hdef, h⟩ := h
  rw [Registry.heldLevels, hdef, ok_bind]
  cases defined with
  | none => exact ⟨[], rfl⟩
  | some m =>
    rw [bind_eq_ok_iff] at h
    obtain ⟨granted, hgrant, h⟩ := h
    simp only [hgrant, ok_bind]
    cases granted with
    | none => exact ⟨[], rfl⟩
    | some g =>
      rw [bind_eq_ok_iff] at h
      obtain ⟨found, hfound, -⟩ := h
      exact ⟨found, hfound⟩

/-- A look-up that fails ends a question with its error. -/
theorem lookUp_of_error {e : Fault} (h : r.heldLevels role resource action = .error e) :
    r.lookUp role resource action noRulebook noGrant answer = .error e := by
  rw [Registry.heldLevels] at h
  rw [Registry.lookUp]
  cases hdef : r.resourceDefinition resource with
  | error other =>
    rw [hdef] at h
    cases h
    rfl
  | ok defined =>
    rw [hdef, ok_bind] at h
    rw [ok_bind]
    cases defined with
    | none => cases h
    | some m =>
      simp only at h ⊢
      cases hgrant : grantFor? m role with
      | error other =>
        rw [hgrant] at h
        cases h
        rfl
      | ok granted =>
        rw [hgrant, ok_bind] at h
        rw [ok_bind]
        cases granted with
        | none => cases h
        | some grant =>
          simp only at h ⊢
          rw [h]
          rfl

end LookUp

/-- A rulebook that is looked up is the one of a resource. -/
theorem metadata?_of_resourceDefinition {m : Metadata}
    (h : r.resourceDefinition resource = .ok (some m)) : ∃ name, r.metadata? name = some m := by
  rw [Registry.resourceDefinition, bind_eq_ok_iff] at h
  obtain ⟨name, -, h⟩ := h
  exact ⟨name, Except.ok.inj h⟩

/-- The levels that a role holds are listed by a grant of a rulebook, unless there are none. -/
theorem exists_listed_of_heldLevels {found : List Value} {l : Value}
    (h : r.heldLevels role resource action = .ok found) (hl : l ∈ found) :
    ∃ name m g a, r.metadata? name = some m ∧ r.resourceDefinition resource = .ok (some m) ∧
      g ∈ m.grants ∧ (a, found) ∈ g.2.permissions := by
  rw [Registry.heldLevels, bind_eq_ok_iff] at h
  obtain ⟨defined, hdef, h⟩ := h
  cases defined with
  | none =>
    cases h
    cases hl
  | some m =>
    rw [bind_eq_ok_iff] at h
    obtain ⟨granted, hgrant, h⟩ := h
    cases granted with
    | none =>
      cases h
      cases hl
    | some g =>
      obtain ⟨name, hname⟩ := metadata?_of_resourceDefinition hdef
      obtain ⟨s, hs⟩ := mem_grants_of_grantFor? hgrant
      obtain ⟨a, ha⟩ := mem_permissions_of_levelsFor h hl
      exact ⟨name, m, (s, g), a, hname, hdef, hs, ha⟩

/-- The levels that a role holds are texts if the rulebooks list texts. -/
theorem isText_of_heldLevels (hr : r.ListsTexts) {found : List Value}
    (h : r.heldLevels role resource action = .ok found) : ∀ l ∈ found, l.IsText := by
  intro l hl
  obtain ⟨name, m, g, a, hname, -, hg, ha⟩ := exists_listed_of_heldLevels h hl
  exact hr name m hname g hg (a, found) ha l hl

/-- For texts the three look-ups cannot fail. -/
theorem heldLevels_of_texts (hrole : role.IsText) (hres : resource.IsProperName)
    (haction : action.IsText) : ∃ found, r.heldLevels role resource action = .ok found := by
  obtain ⟨s, hs, hblank⟩ := hres
  rw [Registry.heldLevels, r.resourceDefinition_of_text? hs hblank, ok_bind]
  cases r.metadata? s with
  | none => exact ⟨[], rfl⟩
  | some m =>
    simp only [grantFor?_of_isText m hrole, ok_bind]
    cases role.text?.bind fun s => m.grants.lookup s with
    | none => exact ⟨[], rfl⟩
    | some g =>
      simp only [levelsFor, Value.requireKey_of_isText haction, ok_bind]
      exact ⟨_, rfl⟩

end AccessControl
