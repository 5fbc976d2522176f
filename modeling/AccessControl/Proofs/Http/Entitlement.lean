import AccessControl.Proofs.Http.Listing
import AccessControl.Proofs.Http.Presentation
import AccessControl.Proofs.Http.Transition

/-!
# What a caller may do is done

`Account.May` says to which accounts a caller may apply an action, and nothing else is ever
allowed.  Conversely, whatever a caller may do is done.  The predicates of the levels never fail
between accounts (`exists_evaluate_rule`), so of the levels that the caller holds one is found that
extends to the account, if there is one; and the record of the decision is taken.  So between
accounts the engine is its table, `granted_iff_may`.

From this follows what the routes about one user come to for a caller who may: the record is shown,
and the user is removed.  Of all that happens on the way, nothing but the account itself matters.
-/

namespace AccessControl

/-- Who may apply an action holds a level for it. -/
theorem Account.May.levels_ne_nil {c t : Account} {action : UserAction} (h : c.May action t) :
    Rulebook.levelsOf c.role action ≠ [] := by
  obtain ⟨l, hl, -⟩ := h
  exact List.ne_nil_of_mem hl

namespace Rulebook

variable {logging : Bool} {c t : Account} {action : UserAction} {resource : Value}

/-! ## 1. Decisions between accounts -/

/-- Between accounts the predicate of a level always says something. -/
theorem exists_evaluate_rule (l : UserLevel) (c t : Account) :
    ∃ b, Interpretation.standard.evaluate (.rule l.rule) [c.context, t.user.toValue] =
      .ok (.bool b) ∧ (b = true ↔ l.Extends c t) := by
  cases l with
  | all => exact ⟨true, rfl, fun _ => trivial, fun _ => rfl⟩
  | byRank => exact ⟨decide (c.rank ≤ t.rank), rfl, decide_eq_true_iff⟩
  | own =>
    refine ⟨Value.same (.text c.userId) (.text t.userId), rfl, ?_⟩
    rw [Value.same_text, beq_iff_eq]
    exact eq_comm
  | assigned =>
    refine ⟨(c.assigned.map Value.text).any (Value.same · (.text t.userId)), rfl, ?_⟩
    simp [UserLevel.Extends, List.any_map]

/-- Of some levels one accepts an account if one extends to it. -/
theorem accepted_iff_extends (levels : List UserLevel) :
    (∃ level, (tryLevels .standard metadata resource c.context t.user.toValue
        (levels.map levelName)).2 = .accepted level) ↔ ∃ l ∈ levels, l.Extends c t := by
  induction levels with
  | nil =>
    constructor
    · rintro ⟨level, h⟩
      cases h
    · rintro ⟨l, hl, -⟩
      cases hl
  | cons first rest ih =>
    obtain ⟨b, hb, hextends⟩ := exists_evaluate_rule first c t
    simp only [List.map_cons, tryLevels, find?_levelName, hb, List.exists_mem_cons_iff, ← hextends]
    cases b with
    | true => exact ⟨fun _ => Or.inl rfl, fun _ => ⟨_, rfl⟩⟩
    | false =>
      simp only [Bool.false_eq_true, false_or]
      exact ih

theorem contextLevels_registry (logging : Bool) (c : Account) (action : UserAction) :
    (registry logging).contextLevels c.context userMember action.member =
      .ok ((levelsOf c.role action).map levelName) := by
  rw [Registry.contextLevels, contextRole?_context]
  exact heldLevels_registry logging c.role action

/-- **Between accounts the engine is its table.** -/
theorem granted_iff_may (hactive : c.status = .active) :
    ((Query.instanceOf userMember action.member t.user.toValue).decide .standard
      (registry logging) c.context).outcome = .ok .granted ↔ c.May action t := by
  refine ⟨fun h => may_of_allowed hactive h, fun hmay => ?_⟩
  have hc : (registry logging).Accepts .standard c.context := accepts_context_iff.mpr hactive
  have hne : (levelsOf c.role action).map levelName ≠ [] := by
    simpa using hmay.levels_ne_nil
  have hallowed : (Query.instanceOf userMember action.member t.user.toValue).allows .standard
      (registry logging) c.context = true :=
    (allows_instanceOf_iff hc (contextLevels_registry logging c action) hne rfl).mpr
      ((accepted_iff_extends _).mpr hmay)
  exact (decide_instanceOf_iff hc).mpr ⟨hallowed, fun a _ => sinkWorks_registry logging a⟩

/-- A caller who holds a level for an action is granted it. -/
theorem granted_of_levels (hactive : c.status = .active) (hne : levelsOf c.role action ≠ []) :
    ((Query.permission userMember action.member []).decide .standard (registry logging)
      c.context).outcome = .ok .granted :=
  (granted_iff (listsTexts_registry logging) (sinkWorks_registry logging)
    (accepts_context_iff.mpr hactive) (by simp)).mpr
      ⟨_, contextLevels_registry logging c action, by simpa using hne, by simp, by simp⟩

/-- A super admin holds the level of all for every action. -/
theorem levelsOf_superAdmin (action : UserAction) : levelsOf .superAdmin action = [.all] := by
  cases action <;> rfl

theorem may_superAdmin (hrole : c.role = .superAdmin) (action : UserAction) (t : Account) :
    c.May action t := by
  rw [Account.May, hrole, levelsOf_superAdmin]
  exact ⟨.all, List.mem_singleton_self _, trivial⟩

end Rulebook

/-! ## 2. Routes -/

namespace Http

open Handler

variable {logging : Bool} {c t : Account} {action : UserAction} {accounts : List Account}
  {d : Directory} {id : String}

namespace Handler

variable {α β : Type}

/-- After a result that has been come by quietly, the rest is done from the same directory. -/
theorem Quiet.run_bind_of_ok {h : Handler α} {a : α} (hh : h.Quiet)
    (ha : (h.run d).outcome = .ok a) (f : α → Handler β) :
    ((h >>= f).run d).directory = ((f a).run d).directory ∧
      ((h >>= f).run d).outcome = ((f a).run d).outcome := by
  rw [Handler.run_bind_of_ok ha, hh d]
  exact ⟨rfl, rfl⟩

end Handler

namespace Access

theorem outcome_authenticated (hactive : c.status = .active) (d : Directory) :
    ((access logging (.resolved c.context)).authenticated.run d).outcome = .ok c.context :=
  outcome_authenticated_of_accepts rfl (Rulebook.accepts_context_iff.mpr hactive) d

/-- A caller who holds a level for an action is permitted it. -/
theorem outcome_permitted (hactive : c.status = .active)
    (hne : Rulebook.levelsOf c.role action ≠ []) (d : Directory) :
    (((access logging (.resolved c.context)).permitted action).run d).outcome =
      .ok c.context := by
  have hc : (access logging (.resolved c.context)).registry.Accepts .standard c.context :=
    Rulebook.accepts_context_iff.mpr hactive
  rw [run_permitted d rfl hc (Rulebook.granted_of_levels hactive hne)]

/-- What a caller may do is not refused. -/
theorem outcome_may (hactive : c.status = .active) (hmay : c.May action t) (d : Directory) :
    (((access logging (.resolved c.context)).may c.context action t.user).run d).outcome =
      .ok () := by
  have hgranted : ((Query.instanceOf Rulebook.userMember action.member t.user.toValue).decide
      .standard (Rulebook.registry logging) c.context).outcome = .ok .granted :=
    (Rulebook.granted_iff_may hactive).mpr hmay
  have hdecided : (((access logging (.resolved c.context)).decide c.context
      (.instanceOf Rulebook.userMember action.member t.user.toValue)).run d).outcome =
        .ok .granted := by
    rw [Access.decide, outcome_ofRun, access, hgranted]
    rfl
  rw [Access.may, outcome_bind_of_ok hdecided]
  rfl

end Access

namespace UserRoutes

theorem outcome_find_of_mem (hd : d.Holds accounts) (ht : t ∈ accounts) (hid : t.userId ≠ "") :
    ((find (.text t.userId)).run d).outcome = .ok t.user := by
  have hget : ((ask (.get (.text t.userId))).run d).outcome = .ok (some t.user) := by
    rw [run_ask, Directory.perform, Directory.get_of_holds hd hid, hd.find?_userId ht]
    rfl
  rw [find, outcome_bind_of_ok hget]
  rfl

theorem outcome_find_of_free (hd : d.Holds accounts) (hfree : ∀ b ∈ accounts, b.userId ≠ id)
    (hid : id ≠ "") : ((find (.text id)).run d).outcome = .error (.noUser (.text id)) := by
  have hnone : accounts.find? (fun b => b.userId == id) = none := by
    simpa [List.find?_eq_none] using hfree
  have hget : ((ask (.get (.text id))).run d).outcome = .ok none := by
    rw [run_ask, Directory.perform, Directory.get_of_holds hd hid, hnone]
    rfl
  rw [find, outcome_bind_of_ok hget]
  rfl

/-- **A user is shown** to a caller who may read it. -/
theorem outcome_read_of_mem (hactive : c.status = .active) (hd : d.Holds accounts)
    (ht : t ∈ accounts) (hid : t.userId ≠ "") (hmay : c.May .read t) :
    ((read (access logging (.resolved c.context)) t.userId).run d).outcome =
      (present t.user).map (Response.json 200) := by
  have ha := harmless_access logging (.resolved c.context)
  have hne : Rulebook.levelsOf c.role .read ≠ [] := hmay.levels_ne_nil
  rw [read, ((Access.quiet_permitted ha .read).run_bind_of_ok
      (Access.outcome_permitted hactive hne d) _).2,
    ((quiet_find _).run_bind_of_ok (outcome_find_of_mem hd ht hid) _).2,
    ((Access.quiet_may ha _ _ _).run_bind_of_ok (Access.outcome_may hactive hmay d) _).2,
    outcome_shown]

/-- A caller who holds a level for reading is told that there is no user. -/
theorem outcome_read_of_free (hactive : c.status = .active) (hd : d.Holds accounts)
    (hfree : ∀ b ∈ accounts, b.userId ≠ id) (hid : id ≠ "")
    (hne : Rulebook.levelsOf c.role .read ≠ []) :
    ((read (access logging (.resolved c.context)) id).run d).outcome =
      .error (.noUser (.text id)) := by
  have ha := harmless_access logging (.resolved c.context)
  rw [read, ((Access.quiet_permitted ha .read).run_bind_of_ok
      (Access.outcome_permitted hactive hne d) _).2,
    outcome_bind_of_error (outcome_find_of_free hd hfree hid)]

/-- **The caller's own record is shown** to a caller who may read it. -/
theorem outcome_me (hactive : c.status = .active) (hd : d.Holds accounts) (hc : c ∈ accounts)
    (hid : c.userId ≠ "") (hmay : c.May .read c) :
    ((me (access logging (.resolved c.context))).run d).outcome =
      (present c.user).map (Response.json 200) := by
  have ha := harmless_access logging (.resolved c.context)
  have hown : ((ofExcept ((Expr.contextField c.context "user_id").mapError Failure.fault)).run
      d).outcome = .ok (.text c.userId) := rfl
  rw [me, ((Access.quiet_authenticated ha).run_bind_of_ok
      (Access.outcome_authenticated hactive d) _).2,
    ((quiet_ofExcept _).run_bind_of_ok hown _).2,
    ((quiet_find _).run_bind_of_ok (outcome_find_of_mem hd hc hid) _).2,
    ((Access.quiet_may ha _ _ _).run_bind_of_ok (Access.outcome_may hactive hmay d) _).2,
    outcome_shown]

/-- **A user is removed** by a caller who may delete it. -/
theorem run_remove_of_mem (hactive : c.status = .active) (hd : d.Holds accounts)
    (ht : t ∈ accounts) (hid : t.userId ≠ "") (hmay : c.May .delete t) :
    ((remove (access logging (.resolved c.context)) t.userId).run d).directory =
        (d.remove (.text t.userId)).1 ∧
      ((remove (access logging (.resolved c.context)) t.userId).run d).outcome =
        .ok ⟨204, [], .empty⟩ := by
  have ha := harmless_access logging (.resolved c.context)
  have hne : Rulebook.levelsOf c.role .delete ≠ [] := hmay.levels_ne_nil
  have hpermitted (f : Value → Handler Response) :=
    (Access.quiet_permitted ha .delete).run_bind_of_ok (Access.outcome_permitted hactive hne d) f
  have hfound (f : User → Handler Response) :=
    (quiet_find _).run_bind_of_ok (outcome_find_of_mem hd ht hid) f
  have hallowed (f : Unit → Handler Response) :=
    (Access.quiet_may ha _ _ _).run_bind_of_ok (Access.outcome_may hactive hmay d) f
  rw [remove, (hpermitted _).1, (hpermitted _).2, (hfound _).1, (hfound _).2, (hallowed _).1,
    (hallowed _).2]
  exact ⟨rfl, rfl⟩

end UserRoutes

end Http

end AccessControl
