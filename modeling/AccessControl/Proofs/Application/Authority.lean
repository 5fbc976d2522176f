import AccessControl.Proofs.Decision.Agreement
import AccessControl.Proofs.Directory.Account

/-!
# Authority over accounts

The rulebook of the application speaks of levels, and the engine evaluates their predicates on the
values of a context and of an instance.  Between accounts this comes down to four plain relations,
`UserLevel.Extends`, and a caller may apply an action to an account, `Account.May`, if one of the
levels that the table grants to the caller's role extends to it.

* `accepts_context_iff`: the context of an account counts when the account is active.
* `may_of_allowed`: what the engine allows on an account, the caller may do.

The table is small, so `May` can be spelled out for the actions that write:
`may_create_delete_iff`, `may_update_iff`.
-/

namespace AccessControl

/-- The level extends from the account of the caller to another account. -/
def UserLevel.Extends : UserLevel → Account → Account → Prop
  | all, _, _ => True
  | byRank, c, t => c.rank ≤ t.rank
  | own, c, t => t.userId = c.userId
  | assigned, c, t => t.userId ∈ c.assigned

/-- One of the levels that the table grants to the caller's role extends to the account. -/
def Account.May (c : Account) (action : UserAction) (t : Account) : Prop :=
  ∃ l ∈ Rulebook.levelsOf c.role action, l.Extends c t

namespace Rulebook

variable {logging : Bool} {c t : Account} {action : UserAction}

/-! ## 1. The context of an account -/

theorem contextRole?_context (c : Account) :
    contextRole? c.context = some (.text c.role.name) := by
  have htruthy : ∀ r : Role, (Value.text r.name).truthy = true := by
    intro r
    cases r <;> rfl
  change (if (Value.text c.role.name).truthy = true then some (Value.text c.role.name).name
    else none) = _
  rw [if_pos (htruthy c.role)]
  rfl

/-- The check of the application asks whether the account is active. -/
theorem evaluate_activeAccount (c : Account) :
    Interpretation.standard.evaluate (.rule .activeAccount) [c.context] =
      .ok (.bool c.user.isActive) := rfl

/-- The context of an account counts when the account is active. -/
theorem accepts_context_iff :
    (registry logging).Accepts .standard c.context ↔ c.status = .active := by
  rw [← Account.isActive_user_iff]
  constructor
  · intro h
    obtain ⟨v, hv, htruthy⟩ := h.passes _ (List.mem_singleton_self _)
    rw [evaluate_activeAccount] at hv
    cases hv
    exact htruthy
  · intro hactive
    refine ⟨rfl, ?_, ?_⟩
    · rw [contextRole?_context]
      rfl
    · intro check hcheck
      rw [List.mem_singleton.mp hcheck]
      exact ⟨_, evaluate_activeAccount c, hactive⟩

/-! ## 2. The predicates of the levels -/

/-- The predicate of a level, between a caller and an account, says whether the level extends
to it. -/
theorem extends_of_evaluate {l : UserLevel} {v : Value}
    (h : Interpretation.standard.evaluate (.rule l.rule) [c.context, t.user.toValue] = .ok v)
    (hv : v.truthy = true) : l.Extends c t := by
  cases l with
  | all => trivial
  | byRank =>
    have hrank : Interpretation.standard.evaluate (.rule UserLevel.byRank.rule)
        [c.context, t.user.toValue] = .ok (.bool (decide (c.rank ≤ t.rank))) := rfl
    rw [hrank] at h
    cases h
    have hle : c.rank ≤ t.rank := of_decide_eq_true hv
    exact hle
  | own =>
    have hown : Interpretation.standard.evaluate (.rule UserLevel.own.rule)
        [c.context, t.user.toValue] =
          .ok (.bool (Value.same (.text c.userId) (.text t.userId))) := rfl
    rw [hown, Value.same_text] at h
    cases h
    exact (eq_of_beq hv).symm
  | assigned =>
    have hassigned : Interpretation.standard.evaluate (.rule UserLevel.assigned.rule)
        [c.context, t.user.toValue] =
          .ok (.bool ((c.assigned.map Value.text).any (Value.same · (.text t.userId)))) := rfl
    rw [hassigned] at h
    cases h
    obtain ⟨v, hmem, hsame⟩ := List.any_eq_true.mp hv
    obtain ⟨id, hid, rfl⟩ := List.mem_map.mp hmem
    rw [Value.same_text] at hsame
    rw [UserLevel.Extends, ← eq_of_beq hsame]
    exact hid

/-- **What the engine allows, the caller may do.** -/
theorem may_of_allowed {answer : Answer} (hactive : c.status = .active)
    (h : ((Query.instanceOf userMember action.member t.user.toValue).decide .standard
      (registry logging) c.context).outcome = .ok answer) : c.May action t := by
  have hc : (registry logging).Accepts .standard c.context := accepts_context_iff.mpr hactive
  obtain ⟨f, hf, -, hallow | hquiet⟩ := (decide_ok_iff (sinkWorks_registry logging) hc).mp h
  · rw [contextRole?_context] at hf
    have hheld := heldLevels_registry logging c.role action
    obtain ⟨f', hf', -, -, hthrough⟩ := answerInstance_of_held (i := .standard) hheld
      (isText_of_heldLevels (listsTexts_registry logging) hheld)
    rw [show f = f' from Except.ok.inj (hf.symm.trans hf')] at hallow
    obtain ⟨level, hlevel, -, m, found, v, hm, hfound, hv, htruthy⟩ := hthrough hallow
    obtain ⟨name, hname⟩ := metadata?_of_resourceDefinition hm
    rw [eq_metadata_of_metadata? hname] at hfound
    obtain ⟨l, hl, rfl⟩ := List.mem_map.mp hlevel
    rw [find?_levelName] at hfound
    cases hfound
    exact ⟨l, hl, extends_of_evaluate hv htruthy⟩
  · cases hquiet

/-! ## 3. The table for the actions that write -/

/-- Creating and deleting are granted to the same roles, through the same levels. -/
theorem levelsOf_create_delete (r : Role) (h : action = .create ∨ action = .delete) :
    levelsOf r action =
      match r with
      | .superAdmin => [.all]
      | .admin => [.byRank]
      | _ => [] := by
  rcases h with rfl | rfl
  · cases r <;> rfl
  · cases r <;> rfl

theorem levelsOf_update (r : Role) : levelsOf r .update =
    match r with
    | .superAdmin => [.all]
    | .admin => [.byRank]
    | .manager => [.assigned, .own]
    | .agent => [.own]
    | .seller => [.own] := by
  cases r <;> rfl

theorem may_create_delete_iff (h : action = .create ∨ action = .delete) :
    c.May action t ↔ c.role = .superAdmin ∨ c.role = .admin ∧ c.rank ≤ t.rank := by
  rw [Account.May, levelsOf_create_delete c.role h]
  cases c.role <;> simp [UserLevel.Extends]

theorem may_update_iff :
    c.May .update t ↔ c.role = .superAdmin ∨ c.role = .admin ∧ c.rank ≤ t.rank ∨
      c.role = .manager ∧ (t.userId ∈ c.assigned ∨ t.userId = c.userId) ∨
      (c.role = .agent ∨ c.role = .seller) ∧ t.userId = c.userId := by
  rw [Account.May, levelsOf_update]
  cases c.role <;> simp [UserLevel.Extends]

end Rulebook

end AccessControl
