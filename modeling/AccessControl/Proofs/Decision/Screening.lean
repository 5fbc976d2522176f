import AccessControl.Decision
import AccessControl.Proofs.Value.Names

/-!
# The screening of contexts

Every decision begins by screening the context.  The engine does this with a loop that stops at
the first check that does not accept; what the loop decides is a plain conjunction, and it is
stated here as `Registry.Accepts`: a context is bound, it has a role, and every check accepts it.

* `screen_eq_none_iff`: the screening raises no objection exactly when the context is accepted.
* `ofCheck_of_mem_screen`: nothing but calls of checks, and the log lines of checks that failed,
  happens while a context is screened.
-/

namespace AccessControl

variable {i : Interpretation} {r : Registry} {context : Value}

/-- The context counts: one is bound, it has a role, and every global check accepts it. -/
structure Registry.Accepts (r : Registry) (i : Interpretation) (context : Value) : Prop where
  bound : context.isNull = false
  hasRole : (contextRole? context).isSome = true
  passes : ∀ c ∈ r.checks, ∃ v, i.evaluate c.fn [context] = .ok v ∧ v.truthy = true

/-- The event comes from a predicate of the registry, a global check or an access level: the
predicate was called, or its failure was logged. -/
def Event.OfPredicate (r : Registry) : Event → Prop
  | called f =>
    (∃ c ∈ r.checks, c.fn = f) ∨ ∃ name m, r.metadata? name = some m ∧ ∃ l ∈ m.levels, l.2.fn = f
  | logged line => line.logger = "gatekeeper.authz.service" ∧ line.audit = none
  | audited _ => False
  | evicted _ => False

/-- The event comes from a global check of the registry: the check was called, or its failure was
logged. -/
def Event.OfCheck (r : Registry) : Event → Prop
  | called f => ∃ c ∈ r.checks, c.fn = f
  | logged line => line.logger = "gatekeeper.authz.service" ∧ line.audit = none
  | audited _ => False
  | evicted _ => False

/-- The log line of a predicate that failed is an event of that predicate. -/
theorem Event.ofPredicate_predicateLine (r : Registry) (message : String) (e : Fault) :
    (Event.logged (predicateLine message e)).OfPredicate r := ⟨rfl, rfl⟩

theorem Event.OfCheck.ofPredicate {e : Event} (h : e.OfCheck r) : e.OfPredicate r := by
  cases e with
  | called f => exact Or.inl h
  | logged line => exact h
  | audited a => exact h
  | evicted userId => exact h

/-! ## 1. The loop over the checks -/

/-- The loop runs to its end exactly when every check accepts. -/
theorem runChecks_eq_none_iff {checks : List GlobalCheck} :
    (runChecks i context checks).2 = none ↔
      ∀ c ∈ checks, ∃ v, i.evaluate c.fn [context] = .ok v ∧ v.truthy = true := by
  induction checks with
  | nil => exact ⟨fun _ c hc => absurd hc List.not_mem_nil, fun _ => rfl⟩
  | cons c rest ih =>
    rw [List.forall_mem_cons, runChecks]
    cases hc : i.evaluate c.fn [context] with
    | error e =>
      constructor
      · intro h
        cases h
      · rintro ⟨⟨v, hv, -⟩, -⟩
        cases hv
    | ok v =>
      by_cases hv : v.truthy = true
      · simp only [if_pos hv]
        rw [ih]
        exact ⟨fun h => ⟨⟨v, rfl, hv⟩, h⟩, fun h => h.2⟩
      · simp only [if_neg hv]
        constructor
        · intro h
          cases h
        · rintro ⟨⟨w, hw, hw'⟩, -⟩
          cases hw
          exact absurd hw' hv

/-- The loop calls checks only. -/
theorem ofCheck_of_mem_runChecks {checks : List GlobalCheck} (hsub : ∀ c ∈ checks, c ∈ r.checks) :
    ∀ e ∈ (runChecks i context checks).1, e.OfCheck r := by
  induction checks with
  | nil =>
    intro e he
    cases he
  | cons c rest ih =>
    rw [List.forall_mem_cons] at hsub
    have hcall : (Event.called c.fn).OfCheck r := ⟨c, hsub.1, rfl⟩
    rw [runChecks]
    cases i.evaluate c.fn [context] with
    | error f =>
      simp only [List.forall_mem_cons]
      exact ⟨hcall, ⟨rfl, rfl⟩, by simp⟩
    | ok v =>
      by_cases hv : v.truthy = true
      · simp only [if_pos hv, List.forall_mem_cons]
        exact ⟨hcall, ih hsub.2⟩
      · simp only [if_neg hv, List.forall_mem_cons]
        exact ⟨hcall, by simp⟩

/-! ## 2. The screening -/

/-- **The screening decides acceptance.** -/
theorem screen_eq_none_iff : (screen i r context).2 = none ↔ r.Accepts i context := by
  rw [screen]
  by_cases hnull : context.isNull = true
  · rw [if_pos hnull]
    constructor
    · intro h
      cases h
    · intro h
      rw [h.bound] at hnull
      cases hnull
  · rw [if_neg hnull]
    by_cases hrole : (contextRole? context).isNone = true
    · rw [if_pos hrole]
      constructor
      · intro h
        cases h
      · intro h
        have hsome := h.hasRole
        rw [Option.isNone_iff_eq_none.mp hrole] at hsome
        cases hsome
    · rw [if_neg hrole, runChecks_eq_none_iff]
      have hsome : (contextRole? context).isSome = true := by
        rw [Option.isSome_iff_ne_none]
        exact fun h => hrole (Option.isNone_iff_eq_none.mpr h)
      exact ⟨fun h => ⟨Bool.eq_false_iff.mpr hnull, hsome, h⟩, fun h => h.passes⟩

/-- Screening a context calls checks only. -/
theorem ofCheck_of_mem_screen : ∀ e ∈ (screen i r context).1, e.OfCheck r := by
  rw [screen]
  split
  · intro e he
    cases he
  · split
    · intro e he
      cases he
    · exact ofCheck_of_mem_runChecks fun c hc => hc

theorem ofPredicate_of_mem_screen : ∀ e ∈ (screen i r context).1, e.OfPredicate r :=
  fun e he => (ofCheck_of_mem_screen e he).ofPredicate

end AccessControl
