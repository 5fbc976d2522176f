import AccessControl.CommandLine.Inquiry
import AccessControl.Decision
import AccessControl.Proofs.CommandLine.Reading

/-!
# What a command line describes

A command line that tries a decision out describes a principal, and says what the principal wants to
do.  The tool reads both off the values that the arguments have left, and it has an answer for
values of any kind and for values that are not there: the empty text, the default role, no rank.

None of these stand-ins is ever used for what must be given.  Whatever has been read is of the kind
that it should be of, so the principal is the one whose id, role, rank, assigned users and activity
stand on the command line, `Principal.GivenBy`, and no other one is.  The same holds of the target
of an instance query, `Target.GivenBy`, where only the role and the rank may be left out.

The one value of an unexpected kind is that of a word that was taken for a separator.  It is the
empty list, and it can stand for what the principal wants to do, or for the resource.
-/

namespace AccessControl

open CommandLine

/-! ## 1. Descriptions -/

/-- The value of a switch that has been there once for each of these texts. -/
def CommandLine.listed : List String → Option Value
  | [] => none
  | texts => some (.list (texts.map .text))

/-- The values describe the principal. -/
structure Principal.GivenBy (p : Principal) (g : Given) : Prop where
  userId : g.lookup "--user-id" = some (.text p.userId)
  role : g.lookup "--role" = some (.text p.role.name)
  /-- The rank may be left out, and is that of the role then. -/
  rank : g.lookup "--rank" = p.rank.map .int
  assigned : g.lookup "--assigned" = listed p.assigned
  inactive : g.lookup "--inactive" = if p.inactive then some (.bool true) else none

/-- The values describe the target. -/
structure Target.GivenBy (t : Target) (g : Given) : Prop where
  userId : g.lookup "--target-id" = some (.text t.userId)
  /-- The role may be left out, and is the default one then. -/
  role : g.lookup "--target-role" = some (.text t.role.name) ∨
    g.lookup "--target-role" = none ∧ t.role = Role.default
  /-- The rank may be left out, and is that of the role then. -/
  rank : g.lookup "--target-rank" = t.rank.map .int

/-- A word of a command line: a text, or nothing if it was taken for a separator. -/
def Value.IsWord (v : Value) : Prop := (∃ s, v = .text s) ∨ v = .list []

namespace Inquiry

/-- The question that a command with these values asks about an action on a resource. -/
inductive Asks (g : Given) (resource action : Value) : String → Query → Prop
  | check (levels : List String) (hlevels : g.lookup "--access-level" = listed levels) :
      Asks g resource action "check" (.permission resource action (levels.map .text))
  | can (t : Target) (ht : t.GivenBy g) :
      Asks g resource action "can" (.instanceOf resource action t.user.toValue)

/-- The command tries a decision out. -/
def IsTrial (e : Entry) : Prop := e.name = "check" ∨ e.name = "can"

variable {g : Given} {e : Entry} {parts known : List Part} {key : String} {s : Switch}

/-! ## 2. Values that are read off -/

theorem textAt_eq {t : String} (h : g.lookup key = some (.text t)) : textAt g key = t := by
  rw [textAt, h, Option.bind_some, Value.text?_text, Option.getD_some]

theorem roleAt_eq {role : Role} (h : g.lookup key = some (.text role.name)) :
    roleAt g key = role := by
  have hrole : Role.ofValue? (.text role.name) = some role := Role.ofName?_name role
  rw [roleAt, h, Option.bind_some, hrole, Option.getD_some]

theorem numberAt_eq {number : Option Int} (h : g.lookup key = number.map .int) :
    numberAt g key = number := by
  rw [numberAt, h]
  cases number <;> rfl

theorem filterMap_texts_eq {items : List String} (h : g.lookup key = listed items) :
    (g.texts key).filterMap Value.text? = items := by
  have hread : Value.text? ∘ Value.text = some := rfl
  rw [Given.texts, h]
  cases items with
  | nil => rfl
  | cons first rest => simp only [listed, List.filterMap_map, hread, List.filterMap_some]

/-- A word that is read is a text or the empty list. -/
theorem exists_word (h : g.ReadBy parts) (hknown : known ⊆ parts) {w : Word}
    (hw : (known.find? fun part => part.key == key) = some (.word w)) :
    ∃ v, g.lookup key = some v ∧ v.IsWord := by
  obtain ⟨v, hv, hstores⟩ := h.stored_of_required hknown hw rfl
  refine ⟨v, hv, ?_⟩
  cases hstores with
  | word _ t => exact Or.inl ⟨t, rfl⟩
  | separator => exact Or.inr rfl

section Switches

variable (h : g.ReadBy parts) (hknown : known ⊆ parts)
  (hs : (known.find? fun part => part.key == key) = some (.switch s))

include h hknown hs

/-- A switch has stored nothing, or what it takes. -/
theorem taken : g.lookup key = none ∨ ∃ v, g.lookup key = some v ∧ s.takes.Stores v := by
  rcases h.stored hknown hs with hnone | ⟨v, hv, hstores⟩
  · exact Or.inl hnone
  · cases hstores with
    | switch hstored => exact Or.inr ⟨v, hv, hstored⟩

/-- A text that must be there is the one that is read off. -/
theorem lookup_text (htakes : s.takes = .text) (hrequired : s.required = true) :
    g.lookup key = some (.text (textAt g key)) := by
  obtain ⟨v, hv, hstores⟩ := h.stored_of_required hknown hs hrequired
  cases hstores with
  | switch hstored =>
    rw [htakes] at hstored
    cases hstored with
    | text t => rw [textAt_eq hv, hv]

/-- The role that is read off is the one whose name is there, or the default one. -/
theorem lookup_role (htakes : s.takes = .choice roleNames) :
    g.lookup key = some (.text (roleAt g key).name) ∨
      g.lookup key = none ∧ roleAt g key = Role.default := by
  rcases taken h hknown hs with hnone | ⟨v, hv, hstored⟩
  · refine Or.inr ⟨hnone, ?_⟩
    rw [roleAt, hnone]
    rfl
  · rw [htakes] at hstored
    cases hstored with
    | choice hmem =>
      obtain ⟨role, -, rfl⟩ := List.mem_map.mp hmem
      left
      rw [roleAt_eq hv, hv]

theorem lookup_number (htakes : s.takes = .number) :
    g.lookup key = (numberAt g key).map .int := by
  rcases taken h hknown hs with hnone | ⟨v, hv, hstored⟩
  · rw [numberAt, hnone]
    rfl
  · rw [htakes] at hstored
    cases hstored with
    | number n =>
      have hnumber : g.lookup key = (some n).map .int := hv
      rw [numberAt_eq hnumber, hnumber]

theorem lookup_texts (htakes : s.takes = .texts) :
    g.lookup key = listed ((g.texts key).filterMap Value.text?) := by
  rcases taken h hknown hs with hnone | ⟨v, hv, hstored⟩
  · rw [Given.texts, hnone]
    rfl
  · rw [htakes] at hstored
    cases hstored with
    | texts items hne =>
      have hlisted : g.lookup key = listed items := by
        rw [hv]
        cases items with
        | nil => exact absurd rfl hne
        | cons first rest => rfl
      rw [filterMap_texts_eq hlisted, hlisted]

theorem lookup_nothing (htakes : s.takes = .nothing) :
    g.lookup key = if (g.lookup key).isSome then some (.bool true) else none := by
  rcases taken h hknown hs with hnone | ⟨v, hv, hstored⟩
  · rw [hnone]
    rfl
  · rw [htakes] at hstored
    cases hstored
    rw [hv]
    rfl

end Switches

/-! ## 3. The commands that try a decision out -/

theorem keysDiffer_tool : ∀ e ∈ tool.entries, KeysDiffer (tool.grammar e).parts := by
  unfold KeysDiffer
  decide

theorem principalParts_subset (he : e ∈ tool.entries) (htrial : IsTrial e) :
    principalParts ⊆ (tool.grammar e).parts := by
  revert e
  unfold IsTrial
  decide

theorem levelPart_subset (he : e ∈ tool.entries) (hname : e.name = "check") :
    [levelPart] ⊆ (tool.grammar e).parts := by
  revert e
  decide

theorem targetParts_subset (he : e ∈ tool.entries) (hname : e.name = "can") :
    targetParts ⊆ (tool.grammar e).parts := by
  revert e
  decide

/-- **The principal is the one that the command line describes.** -/
theorem givenBy_principalOf (h : g.ReadBy parts) (hknown : principalParts ⊆ parts) :
    (principalOf g).GivenBy g where
  userId := lookup_text h hknown rfl rfl rfl
  role := by
    have hrole : g.lookup "--role" = some (.text (roleAt g "--role").name) ∨
        g.lookup "--role" = none ∧ _ := lookup_role h hknown rfl rfl
    obtain ⟨v, hv, -⟩ : ∃ v, g.lookup "--role" = some v ∧ _ :=
      h.stored_of_required hknown rfl rfl
    rcases hrole with hsome | ⟨hnone, -⟩
    · exact hsome
    · rw [hv] at hnone
      cases hnone
  rank := lookup_number h hknown rfl rfl
  assigned := lookup_texts h hknown rfl rfl
  inactive := lookup_nothing h hknown rfl rfl

/-- **The target is the one that the command line describes.** -/
theorem givenBy_targetOf (h : g.ReadBy parts) (hknown : targetParts ⊆ parts) :
    (targetOf g).GivenBy g where
  userId := lookup_text h hknown rfl rfl rfl
  role := lookup_role h hknown rfl rfl
  rank := lookup_number h hknown rfl rfl

end Inquiry

open Inquiry

variable {g : Given}

/-- No other principal is described. -/
theorem Principal.GivenBy.eq_principalOf {p : Principal} (h : p.GivenBy g) :
    p = principalOf g := by
  have hinactive : (g.lookup "--inactive").isSome = p.inactive := by
    rw [h.inactive]
    cases p.inactive <;> rfl
  rw [principalOf, textAt_eq h.userId, roleAt_eq h.role, numberAt_eq h.rank,
    filterMap_texts_eq h.assigned, hinactive]

/-- No other target is described. -/
theorem Target.GivenBy.eq_targetOf {t : Target} (h : t.GivenBy g) : t = targetOf g := by
  have hrole : roleAt g "--target-role" = t.role := by
    rcases h.role with hsome | ⟨hnone, hdefault⟩
    · exact roleAt_eq hsome
    · rw [roleAt, hnone, hdefault]
      rfl
  rw [targetOf, textAt_eq h.userId, hrole, numberAt_eq h.rank]

end AccessControl
