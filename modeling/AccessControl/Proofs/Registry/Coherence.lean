import AccessControl.Proofs.Registry.Growth
import AccessControl.Proofs.Value.Names

/-!
# Rulebooks fit together

A definition names things in two places: what there is, and what is granted.  Validation compares
the two, and a rulebook that has passed it is *coherent*: every grant stays within the actions,
the levels and the relationships that the rulebook declares.

## Why it is kept

Validation reads the grants one by one into an accumulator, in which a later entry replaces an
earlier one of the same name.  So the invariant of each of the loops is that everything
accumulated so far stays within what is declared, and `Value.put` and `assign` keep it because
they put in nothing but what they are given.

A registry gets no rulebook but one that has been validated (`metadata?_of_change`), and never
changes one.  Hence every registry that can be come by is coherent: `Registry.Reachable.coherent`.
-/

namespace AccessControl

/-- The grant stays within what is declared: its actions, the levels of each, and its
relationships are the same as declared ones. -/
structure Grant.Within (g : Grant) (actions levels relationships : List Value) : Prop where
  actions : ∀ p ∈ g.permissions, actions.any (Value.same · p.1) = true
  levels : ∀ p ∈ g.permissions, ∀ l ∈ p.2, levels.any (Value.same · l) = true
  relationships : ∀ x ∈ g.relationships, relationships.any (Value.same · x) = true

/-- Every grant of the rulebook stays within what the rulebook declares. -/
def Metadata.Coherent (m : Metadata) : Prop :=
  ∀ e ∈ m.grants, e.2.Within m.actions (m.levels.map Prod.fst) m.relationships

/-- Every rulebook of the registry is coherent. -/
def Registry.Coherent (r : Registry) : Prop :=
  ∀ name m, r.metadata? name = some m → m.Coherent

/-! ## 1. Accumulators -/

theorem Value.mem_of_mem_foldl_addTo {v : Value} {items acc : List Value}
    (h : v ∈ items.foldl Value.addTo acc) : v ∈ acc ∨ v ∈ items := by
  induction items generalizing acc with
  | nil => exact Or.inl h
  | cons w rest ih =>
    rcases ih h with hacc | hrest
    · rw [Value.addTo] at hacc
      split at hacc
      · exact Or.inl hacc
      · rcases List.mem_append.mp hacc with hacc | hw
        · exact Or.inl hacc
        · rw [List.mem_singleton.mp hw]
          exact Or.inr (List.mem_cons_self ..)
    · exact Or.inr (List.mem_cons_of_mem _ hrest)

/-- A list without repetitions has no elements of its own. -/
theorem Value.mem_of_mem_distinct {v : Value} {items : List Value} (h : v ∈ Value.distinct items) :
    v ∈ items := by
  rcases Value.mem_of_mem_foldl_addTo h with h | h
  · cases h
  · exact h

/-! ## 2. What validation has seen -/

namespace Definition

variable {isRole : String → Bool} {actions levels relationships : List Value}

/-- Names that pass are known. -/
theorem known_of_allKnown {lookUp : Value → Except Defect Unit} {known : List Value}
    {unknown : Value → DefinitionFlaw} {names : List Value}
    (h : allKnown lookUp known unknown names = .ok ()) :
    ∀ v ∈ names, known.any (Value.same · v) = true := by
  induction names with
  | nil =>
    intro v hv
    cases hv
  | cons v rest ih =>
    rw [allKnown, bind_eq_ok_iff] at h
    obtain ⟨-, -, h⟩ := h
    rw [List.forall_mem_cons]
    split at h
    · rename_i hv
      exact ⟨hv, ih h⟩
    · cases h

/-- The permissions that are read stay within the declared actions and levels. -/
theorem within_of_readPermissions {acc read : List (Value × List Value)}
    {entries : List (Value × Value)}
    (hacc : ∀ p ∈ acc, actions.any (Value.same · p.1) = true ∧
      ∀ l ∈ p.2, levels.any (Value.same · l) = true)
    (h : readPermissions actions levels acc entries = .ok read) :
    ∀ p ∈ read, actions.any (Value.same · p.1) = true ∧
      ∀ l ∈ p.2, levels.any (Value.same · l) = true := by
  induction entries generalizing acc with
  | nil =>
    cases h
    exact hacc
  | cons first rest ih =>
    obtain ⟨key, listed⟩ := first
    rw [readPermissions, bind_eq_ok_iff] at h
    obtain ⟨⟨⟩, haction, h⟩ := h
    rw [bind_eq_ok_iff] at h
    obtain ⟨names, -, h⟩ := h
    rw [bind_eq_ok_iff] at h
    obtain ⟨⟨⟩, hlevels, h⟩ := h
    have hkey := known_of_allKnown haction key.name (List.mem_singleton_self _)
    have hnext := Value.forall_mem_put (K := fun a => actions.any (Value.same · a) = true)
      (V := fun ls => ∀ l ∈ ls, levels.any (Value.same · l) = true) hkey
      (known_of_allKnown hlevels) hacc
    exact ih hnext h

/-- A grant that is read stays within what is declared. -/
theorem within_of_readGrant {entry : Value} {g : Grant}
    (h : readGrant actions levels relationships entry = .ok g) :
    g.Within actions levels relationships := by
  rw [readGrant, bind_eq_ok_iff] at h
  obtain ⟨parts, -, h⟩ := h
  rw [bind_eq_ok_iff] at h
  obtain ⟨entries, -, h⟩ := h
  rw [bind_eq_ok_iff] at h
  obtain ⟨permissions, hpermissions, h⟩ := h
  rw [bind_eq_ok_iff] at h
  obtain ⟨held, -, h⟩ := h
  rw [bind_eq_ok_iff] at h
  obtain ⟨⟨⟩, hheld, h⟩ := h
  cases h
  have hread := within_of_readPermissions (by simp) hpermissions
  exact {
    actions := fun p hp => (hread p hp).1
    levels := fun p hp => (hread p hp).2
    relationships := fun x hx => known_of_allKnown hheld x (Value.mem_of_mem_distinct hx) }

/-- All grants that are read are grants of known roles, and what holds of every grant that can be
read holds of them. -/
theorem forall_mem_readGrants {P : Grant → Prop}
    (hP : ∀ entry g, readGrant actions levels relationships entry = .ok g → P g)
    {acc grants : List (String × Grant)} {entries : List (Value × Value)}
    (hacc : ∀ e ∈ acc, isRole e.1 = true ∧ P e.2)
    (h : readGrants isRole actions levels relationships acc entries = .ok grants) :
    ∀ e ∈ grants, isRole e.1 = true ∧ P e.2 := by
  induction entries generalizing acc with
  | nil =>
    cases h
    exact hacc
  | cons first rest ih =>
    obtain ⟨key, entry⟩ := first
    rw [readGrants, bind_eq_ok_iff] at h
    obtain ⟨-, -, h⟩ := h
    split at h
    · cases h
    · rename_i role _
      split at h
      · rename_i hrole
        rw [bind_eq_ok_iff] at h
        obtain ⟨g, hg, h⟩ := h
        rw [assign] at h
        have hnext : ∀ e ∈ upsert role (fun _ => g) acc, isRole e.1 = true ∧ P e.2 :=
          forall_mem_upsert (K := fun k => isRole k = true) (V := P) hrole (fun _ => hP entry g hg)
            hacc
        exact ih hnext h
      · cases h

/-- The levels and the grants of a rulebook have been read from the definition that it is made
of. -/
theorem read_of_validate {d : Definition} {m : Metadata} (h : d.validate isRole = .ok m) :
    levelsOf d.levels = .ok m.levels ∧
      ∃ entries, d.roles.requireEntries = .ok entries ∧
        readGrants isRole m.actions (m.levels.map Prod.fst) m.relationships [] entries =
          .ok m.grants := by
  rw [validate, bind_eq_ok_iff] at h
  obtain ⟨identifier, -, h⟩ := h
  rw [bind_eq_ok_iff] at h
  obtain ⟨actions, -, h⟩ := h
  rw [bind_eq_ok_iff] at h
  obtain ⟨relationships, -, h⟩ := h
  rw [bind_eq_ok_iff] at h
  obtain ⟨levels, hlevels, h⟩ := h
  rw [bind_eq_ok_iff] at h
  obtain ⟨entries, hentries, h⟩ := h
  rw [bind_eq_ok_iff] at h
  obtain ⟨grants, hgrants, h⟩ := h
  cases h
  exact ⟨hlevels, entries, mapError_eq_ok_iff.mp hentries, hgrants⟩

/-- Every grant of an accepted definition is a grant of a known role. -/
theorem isRole_of_validate {d : Definition} {m : Metadata} (h : d.validate isRole = .ok m) :
    ∀ e ∈ m.grants, isRole e.1 = true := by
  obtain ⟨-, entries, -, hgrants⟩ := read_of_validate h
  exact fun e he =>
    (forall_mem_readGrants (fun _ _ => within_of_readGrant) (by simp) hgrants e he).1

/-- **A definition that passes validation is coherent.** -/
theorem coherent_of_validate {d : Definition} {m : Metadata} (h : d.validate isRole = .ok m) :
    m.Coherent := by
  obtain ⟨-, entries, -, hgrants⟩ := read_of_validate h
  exact fun e he =>
    (forall_mem_readGrants (fun _ _ => within_of_readGrant) (by simp) hgrants e he).2

end Definition

/-! ## 3. Every registry -/

namespace Registry

variable {r r' : Registry}

/-- A change brings no rulebook but one that has been validated. -/
theorem metadata?_of_change (h : Change r r') {name : String} {m : Metadata}
    (hm : r'.metadata? name = some m) :
    r.metadata? name = some m ∨ ∃ d : Definition, d.validate r.hasRole = .ok m := by
  cases h with
  | role _ _ _ => exact Or.inl hm
  | defaultRole _ _ _ _ => exact Or.inl hm
  | hooks _ _ _ _ _ _ => exact Or.inl hm
  | declaration resource hnew =>
    rw [metadata?, lookup_assign] at hm
    split at hm
    · cases hm
    · exact Or.inl hm
  | definition resource d m' hnew hvalid =>
    rw [metadata?, lookup_assign] at hm
    split at hm
    · cases hm
      exact Or.inr ⟨d, hvalid⟩
    · exact Or.inl hm

/-- **Every rulebook of a registry that can be come by is coherent.** -/
theorem Reachable.coherent (h : Reachable r) : r.Coherent := by
  refine h.invariant (fun name m hm => by cases hm) fun r r' hr hchange name m hm => ?_
  rcases metadata?_of_change hchange hm with hold | ⟨d, hd⟩
  · exact hr name m hold
  · exact Definition.coherent_of_validate hd

end Registry

end AccessControl
