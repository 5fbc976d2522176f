import Mathlib.Data.List.Forall2

/-!
# Outcomes, peeled apart

Most operations of the library are chains of steps in `Except`: each step may end the chain with
an error, and otherwise hands its result on.  A chain that succeeds has succeeded at every step,
and that is the only thing later proofs want to know about it.  The lemmas here say it once, for
`bind`, `map` and `mapError`, so that no proof has to open the monad.
-/

namespace AccessControl

variable {ε δ α β : Type}

@[simp] theorem ok_bind (a : α) (f : α → Except ε β) : (Except.ok a >>= f) = f a := rfl

@[simp] theorem error_bind (e : ε) (f : α → Except ε β) :
    (Except.error e >>= f) = Except.error e := rfl

@[simp] theorem pure_eq_ok (a : α) : (pure a : Except ε α) = .ok a := rfl

/-- A step that succeeds hands its result on. -/
theorem bind_eq_of_ok {x : Except ε α} {a : α} (h : x = .ok a) (f : α → Except ε β) :
    (x >>= f) = f a := by
  rw [h, ok_bind]

/-- A chain succeeds exactly when its first step does and the rest does from there. -/
theorem bind_eq_ok_iff {x : Except ε α} {f : α → Except ε β} {b : β} :
    (x >>= f) = .ok b ↔ ∃ a, x = .ok a ∧ f a = .ok b := by
  cases x with
  | error e =>
    rw [error_bind]
    constructor
    · intro h
      cases h
    · rintro ⟨a, h, -⟩
      cases h
  | ok a =>
    rw [ok_bind]
    constructor
    · exact fun h => ⟨a, rfl, h⟩
    · rintro ⟨a', h, hf⟩
      cases h
      exact hf

/-- A chain fails when its first step does, or when the rest does from there. -/
theorem bind_eq_error_iff {x : Except ε α} {f : α → Except ε β} {e : ε} :
    (x >>= f) = .error e ↔ x = .error e ∨ ∃ a, x = .ok a ∧ f a = .error e := by
  cases x with
  | error e' =>
    rw [error_bind]
    constructor
    · intro h
      cases h
      exact Or.inl rfl
    · rintro (h | ⟨a, h, -⟩)
      · cases h
        rfl
      · cases h
  | ok a =>
    rw [ok_bind]
    constructor
    · exact fun h => Or.inr ⟨a, rfl, h⟩
    · rintro (h | ⟨a', h, hf⟩)
      · cases h
      · cases h
        exact hf

theorem map_eq_ok_iff {f : α → β} {b : β} {x : Except ε α} :
    x.map f = .ok b ↔ ∃ a, x = .ok a ∧ f a = b := by
  cases x with
  | error e =>
    constructor
    · intro h
      cases h
    · rintro ⟨a, h, -⟩
      cases h
  | ok a =>
    constructor
    · exact fun h => ⟨a, rfl, Except.ok.inj h⟩
    · rintro ⟨a', h, hf⟩
      cases h
      exact congrArg Except.ok hf

theorem map_eq_error_iff {f : α → β} {e : ε} {x : Except ε α} :
    x.map f = .error e ↔ x = .error e := by
  cases x with
  | error e' =>
    constructor
    · exact fun h => congrArg Except.error (Except.error.inj h)
    · exact fun h => congrArg Except.error (Except.error.inj h)
  | ok a =>
    constructor
    · intro h
      cases h
    · intro h
      cases h

theorem map_ok (f : α → β) (a : α) : (Except.ok a : Except ε α).map f = .ok (f a) := rfl

theorem mapError_ok (rename : ε → δ) (a : α) : (Except.ok a).mapError rename = .ok a := rfl

/-- Renaming the error of a step does not make it succeed. -/
theorem mapError_eq_ok_iff {rename : ε → δ} {a : α} {x : Except ε α} :
    x.mapError rename = .ok a ↔ x = .ok a := by
  cases x with
  | error e =>
    constructor
    · intro h
      cases h
    · intro h
      cases h
  | ok b =>
    constructor
    · exact fun h => congrArg Except.ok (Except.ok.inj h)
    · exact fun h => congrArg Except.ok (Except.ok.inj h)

/-- Steps for the elements of a list succeed with these results when each of them does with its
own. -/
theorem mapM_eq_ok_iff {f : α → Except ε β} {items : List α} {results : List β} :
    items.mapM f = .ok results ↔ List.Forall₂ (fun a b => f a = .ok b) items results := by
  induction items generalizing results with
  | nil =>
    constructor
    · intro h
      cases h
      exact .nil
    · intro h
      cases h
      rfl
  | cons a rest ih =>
    rw [List.mapM_cons, bind_eq_ok_iff]
    constructor
    · rintro ⟨b, hb, h⟩
      obtain ⟨later, hlater, h⟩ := bind_eq_ok_iff.mp h
      cases h
      exact .cons hb (ih.mp hlater)
    · intro h
      cases h with
      | cons hb hlater => exact ⟨_, hb, bind_eq_ok_iff.mpr ⟨_, ih.mpr hlater, rfl⟩⟩

theorem exists_mapM_eq_ok_iff {f : α → Except ε β} {items : List α} :
    (∃ results, items.mapM f = .ok results) ↔ ∀ a ∈ items, ∃ b, f a = .ok b := by
  induction items with
  | nil => exact ⟨fun _ => by simp, fun _ => ⟨[], rfl⟩⟩
  | cons a rest ih =>
    rw [List.forall_mem_cons, ← ih, List.mapM_cons]
    constructor
    · rintro ⟨results, h⟩
      obtain ⟨b, hb, h⟩ := bind_eq_ok_iff.mp h
      obtain ⟨later, hlater, -⟩ := bind_eq_ok_iff.mp h
      exact ⟨⟨b, hb⟩, later, hlater⟩
    · rintro ⟨⟨b, hb⟩, later, hlater⟩
      exact ⟨b :: later, by rw [hb, ok_bind, hlater]; rfl⟩

/-- Steps for elements some of which are skipped are the steps for the others. -/
theorem mapM_filter_eq {p : α → Bool} {f : α → Except ε β} (items : List α) :
    (items.filter p).mapM f =
      (items.mapM fun a => if p a then (f a).map some else .ok none).map
        fun found => found.filterMap id := by
  induction items with
  | nil => rfl
  | cons a rest ih =>
    rw [List.mapM_cons]
    by_cases ha : p a = true
    · rw [List.filter_cons_of_pos ha, List.mapM_cons, if_pos ha, ih]
      cases f a with
      | error e => rfl
      | ok b =>
        rw [ok_bind]
        cases rest.mapM fun a => if p a then (f a).map some else .ok none with
        | error e => rfl
        | ok found => rfl
    · rw [List.filter_cons_of_neg ha, if_neg ha, ih, ok_bind]
      cases rest.mapM fun a => if p a then (f a).map some else .ok none with
      | error e => rfl
      | ok found => rfl

/-- Every error that the step can end with satisfies the predicate. -/
def FailsWith (P : ε → Prop) (x : Except ε α) : Prop :=
  ∀ e, x = .error e → P e

theorem failsWith_ok {P : ε → Prop} (a : α) : FailsWith P (.ok a : Except ε α) := by
  intro e h
  cases h

theorem failsWith_error {P : ε → Prop} {e : ε} (he : P e) :
    FailsWith P (.error e : Except ε α) := by
  intro e' h
  cases h
  exact he

/-- The errors of a chain are those of its steps. -/
theorem failsWith_bind {P : ε → Prop} {x : Except ε α} {f : α → Except ε β} (hx : FailsWith P x)
    (hf : ∀ a, FailsWith P (f a)) : FailsWith P (x >>= f) := by
  cases x with
  | error e => exact failsWith_error (hx e rfl)
  | ok a => exact hf a

theorem failsWith_map {P : ε → Prop} {f : α → β} {x : Except ε α} (hx : FailsWith P x) :
    FailsWith P (x.map f) := by
  cases x with
  | error e => exact failsWith_error (hx e rfl)
  | ok a => exact failsWith_ok _

/-- The errors of steps for the elements of a list are those of the steps. -/
theorem failsWith_mapM {P : ε → Prop} {f : α → Except ε β} (h : ∀ a, FailsWith P (f a))
    (items : List α) : FailsWith P (items.mapM f) := by
  induction items with
  | nil => exact failsWith_ok []
  | cons a rest ih =>
    rw [List.mapM_cons]
    exact failsWith_bind (h a) fun _ => failsWith_bind ih fun _ => failsWith_ok _

/-- The errors of a step whose errors are renamed. -/
theorem failsWith_mapError {P : δ → Prop} {rename : ε → δ} {x : Except ε α}
    (hx : FailsWith (fun e => P (rename e)) x) : FailsWith P (x.mapError rename) := by
  cases x with
  | error e => exact failsWith_error (hx e rfl)
  | ok a => exact failsWith_ok a

/-- What can be tested of the result of a chain holds of it, and there is a result. -/
theorem exists_ok_of_any {p : α → Bool} {x : Except ε α} (h : x.toOption.any p = true) :
    ∃ a, x = .ok a ∧ p a = true := by
  cases x with
  | error e => cases h
  | ok a => exact ⟨a, rfl, h⟩

/-- The step ends with an error that passes the test. -/
def failsBy (p : ε → Bool) : Except ε α → Bool
  | .error e => p e
  | .ok _ => false

/-- What can be tested of the error of a chain holds of it, and there is an error. -/
theorem exists_error_of_failsBy {p : ε → Bool} {x : Except ε α} (h : failsBy p x = true) :
    ∃ e, x = .error e ∧ p e = true := by
  cases x with
  | error e => exact ⟨e, rfl, h⟩
  | ok a => cases h

end AccessControl
