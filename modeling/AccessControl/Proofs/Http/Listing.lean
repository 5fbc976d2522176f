import AccessControl.Proofs.Http.Routes
import AccessControl.Proofs.Registry.References

/-!
# The list of users

The list of users could ask the engine about every user, and leave one record for each of them.
Instead it asks once for the levels of the caller, and then goes through these levels itself for
every user.  So there are two loops over the same levels, `UserRoutes.visible` and `tryLevels`,
and they do not treat everything in the same way.

* A level that the rulebook does not have hides the user in the one, and is skipped in the other.
* A level that fails hides the user in the one, and is a denial in the other.

## Why they agree

The second difference is none, since a denial hides too.  The first would be one, but it cannot
come up: in a registry that can be come by, a level that is held has an entry in the rulebook
(`Registry.Coherent.exists_level`).  So the loops accept the same users (`visible_eq_allows`), and
the list shows those, in their order (`outcome_list`).

## What remains different

A decision leaves a record, and a sink that does not take it makes the decision fail.  The list
leaves no record for the single user.  So a user who is listed may be one about whom the engine
would not answer: what the two have in common is what the record says, and the answer is given if
the record is taken (`decide_instanceOf_iff`).
-/

namespace AccessControl

variable {i : Interpretation} {r : Registry} {context resource action inst : Value} {q : Query}

/-! ## 1. What is decided and what is answered -/

/-- The decision is an allowance: its record says so. -/
def Query.allows (q : Query) (i : Interpretation) (r : Registry) (context : Value) : Bool :=
  (q.record? i r context).any Audit.allowed

/-- The record of the decision, if there is one, is taken. -/
def Query.Taken (q : Query) (i : Interpretation) (r : Registry) (context : Value) : Prop :=
  ∀ a, q.record? i r context = some a → Recorded i r a

theorem allows_iff (hc : r.Accepts i context) :
    q.allows i r context = true ↔
      ∃ f, (q.find i r context ((contextRole? context).getD .null)).outcome = .ok f ∧
        f.verdict = .allow := by
  cases hf : (q.find i r context ((contextRole? context).getD .null)).outcome with
  | error e =>
    have hnone : q.record? i r context = none := by
      simp only [Query.record?, screen_eq_none_iff.mpr hc, hf]
    rw [Query.allows, hnone]
    constructor
    · intro h
      cases h
    · rintro ⟨f, hf', -⟩
      cases hf'
  | ok f =>
    rw [Query.allows, record?_of_find hc hf, Option.any_some, Audit.allowed_eq_true_iff]
    constructor
    · exact fun h => ⟨f, rfl, h⟩
    · rintro ⟨f', hf', h⟩
      cases hf'
      exact h

/-- An instance query that is not denied has no other answer than that the action is granted. -/
theorem answer_of_answerInstance {role : Value} {f : Finding}
    (h : (answerInstance i r context role resource action inst).outcome = .ok f) :
    f.answer = .granted := by
  rcases answerInstance_cases i r context role resource action inst with
    ⟨e, -, hrun⟩ | ⟨id, message, -, hrun⟩ | ⟨m, found, -, -, -, hrun⟩
  · rw [hrun] at h
    cases h
  · rw [hrun] at h
    cases h
    rfl
  · rw [hrun] at h
    cases htried : (tryLevels i m resource context inst found).2 with
    | accepted level =>
      rw [htried] at h
      cases h
      rfl
    | errored level kind =>
      rw [htried] at h
      cases h
      rfl
    | none =>
      rw [htried] at h
      obtain ⟨names, -, h⟩ := bind_eq_ok_iff.mp h
      cases h
      rfl

/-- **An instance query is answered** when it is decided as an allowance and the record of this
is taken. -/
theorem decide_instanceOf_iff (hc : r.Accepts i context) :
    ((Query.instanceOf resource action inst).decide i r context).outcome = .ok .granted ↔
      (Query.instanceOf resource action inst).allows i r context = true ∧
        (Query.instanceOf resource action inst).Taken i r context := by
  rw [decide_recorded_iff hc, allows_iff hc]
  constructor
  · rintro ⟨f, hf, -, hallow | hquiet, hrecorded⟩
    · refine ⟨⟨f, hf, hallow⟩, fun a ha => ?_⟩
      rw [record?_of_find hc hf] at ha
      cases ha
      exact hrecorded
    · cases hquiet
  · rintro ⟨⟨f, hf, hallow⟩, htaken⟩
    exact ⟨f, hf, answer_of_answerInstance hf, Or.inl hallow, htaken _ (record?_of_find hc hf)⟩

/-- When levels are held, an instance query is an allowance if one of them accepts. -/
theorem allows_instanceOf_iff (hc : r.Accepts i context) {m : Metadata} {found : List Value}
    (hheld : r.contextLevels context resource action = .ok found) (hne : found ≠ [])
    (hdef : r.resourceDefinition resource.name = .ok (some m)) :
    (Query.instanceOf resource action inst).allows i r context = true ↔
      ∃ level, (tryLevels i m resource.name context inst found).2 = .accepted level := by
  have hrole : r.heldLevels ((contextRole? context).getD .null) resource.name action.name =
      .ok found := hheld
  rw [allows_iff hc, Query.find]
  rcases answerInstance_cases i r context ((contextRole? context).getD .null) resource.name
    action.name inst with ⟨e, he, -⟩ | ⟨id, message, hnil, -⟩ | ⟨m', found', hsome, -, hm', hrun⟩
  · rw [hrole] at he
    cases he
  · rw [hrole] at hnil
    cases hnil
    exact absurd rfl hne
  · rw [hrole] at hsome
    rw [hdef] at hm'
    cases hsome
    cases hm'
    rw [hrun]
    cases (tryLevels i m resource.name context inst found).2 with
    | accepted level => exact ⟨fun _ => ⟨level, rfl⟩, fun _ => ⟨_, rfl, rfl⟩⟩
    | errored level kind =>
      constructor
      · rintro ⟨f, hf, hallow⟩
        cases hf
        cases hallow
      · rintro ⟨level, h⟩
        cases h
    | none =>
      constructor
      · rintro ⟨f, hf, hallow⟩
        obtain ⟨names, -, hf⟩ := bind_eq_ok_iff.mp hf
        cases hf
        cases hallow
      · rintro ⟨level, h⟩
        cases h

namespace Http

open Handler

namespace UserRoutes

/-! ## 2. The two loops -/

variable {granted : List Value} {u : User} {d : Directory} {a : Access}

/-- Through the same levels, each of which has an entry in the rulebook, the loops accept the same
users. -/
theorem visible_iff_accepted {m : Metadata} {levels : List Value}
    (hlevels : ∀ level ∈ levels, ∃ l, Value.find? level m.levels = some l) :
    (visible i m.levels context u levels).2 = true ↔
      ∃ level, (tryLevels i m resource context u.toValue levels).2 = .accepted level := by
  induction levels with
  | nil =>
    constructor
    · intro h
      cases h
    · rintro ⟨level, h⟩
      cases h
  | cons first rest ih =>
    rw [List.forall_mem_cons] at hlevels
    obtain ⟨⟨l, hl⟩, hrest⟩ := hlevels
    simp only [visible, tryLevels, hl]
    cases i.evaluate l.fn [context, u.toValue] with
    | error e =>
      constructor
      · intro h
        cases h
      · rintro ⟨level, h⟩
        cases h
    | ok v =>
      by_cases hv : v.truthy = true
      · simp only [if_pos hv]
        exact ⟨fun _ => ⟨first, rfl⟩, fun _ => trivial⟩
      · simp only [if_neg hv]
        exact ih hrest

/-- The question whether the caller may list users at all. -/
def listPermission : Query :=
  .permission Rulebook.userMember UserAction.list.member []

/-- The question through which levels the caller may list users. -/
def listLevels : Query :=
  .levels Rulebook.userMember UserAction.list.member

/-- The question whether the caller may list this user. -/
def listInstance (u : User) : Query :=
  .instanceOf Rulebook.userMember UserAction.list.member u.toValue

theorem resourceDefinition_userMember (r : Registry) :
    r.resourceDefinition Rulebook.userMember.name = .ok (r.metadata? Rulebook.userResource) :=
  r.resourceDefinition_of_text? rfl rfl

/-- **The list shows whom the engine allows.** -/
theorem visible_eq_allows (hr : r.Reachable) (hc : r.Accepts i context)
    (hlevels : (listLevels.decide i r context).outcome = .ok (.levels (some granted))) (u : User) :
    (visible i (userLevels r) context u granted).2 = (listInstance u).allows i r context := by
  obtain ⟨hheld, hne⟩ := held_of_levels hlevels
  obtain ⟨first, hfirst⟩ := List.exists_mem_of_ne_nil granted hne
  obtain ⟨m, -, hdef, -⟩ := hr.coherent.exists_level hheld hfirst
  have hentries : ∀ level ∈ granted, ∃ l, Value.find? level m.levels = some l := by
    intro level hlevel
    obtain ⟨m', l, hdef', hl⟩ := hr.coherent.exists_level hheld hlevel
    rw [hdef] at hdef'
    cases hdef'
    exact ⟨l, hl⟩
  have hmetadata : r.metadata? Rulebook.userResource = some m :=
    Except.ok.inj ((resourceDefinition_userMember r).symm.trans hdef)
  have huser : userLevels r = m.levels := by
    rw [userLevels, hmetadata]
    rfl
  rw [Bool.eq_iff_iff, huser, visible_iff_accepted hentries, listInstance,
    allows_instanceOf_iff hc hheld hne hdef]

/-! ## 3. The list -/

/-- What happens before the users are listed: the caller is checked, and the two questions are
asked. -/
def listQuestions (i : Interpretation) (r : Registry) (context : Value) : List Event :=
  (authenticate i r context).events ++ (listPermission.decide i r context).events ++
    (listLevels.decide i r context).events

/-- The record of one user, if it is shown. -/
theorem outcome_showVisible (d : Directory) :
    ((showVisible a context granted u).run d).outcome =
      if (visible a.interpretation (userLevels a.registry) context u granted).2 then
        (present u).map some
      else .ok none := by
  rw [showVisible]
  split <;> rfl

/-- Once the levels are known, the rows are the users that are visible through them. -/
theorem outcome_rows {users : List User} (husers : d.list = .ok users) :
    ((do
        let found ← ask .list
        let rows ← each (showVisible a context granted) found
        return Response.json 200 (.list (rows.filterMap id)) : Handler Response).run d).outcome =
      ((users.filter fun u =>
          (visible a.interpretation (userLevels a.registry) context u granted).2).mapM
        present).map fun rows => Response.json 200 (.list rows) := by
  have hasked : (ask .list).run d = ⟨d, [], .ok users⟩ := by
    rw [run_ask, Directory.perform, husers]
    rfl
  have hrows : ((each (showVisible a context granted) users).run d).outcome =
      users.mapM fun u =>
        if (visible a.interpretation (userLevels a.registry) context u granted).2 then
          (present u).map some
        else .ok none :=
    outcome_each_of_quiet (quiet_showVisible _ _) (fun _ d => outcome_showVisible d) users
  rw [outcome_bind_of_ok (congrArg Result.outcome hasked), hasked, mapM_filter_eq, ← hrows]
  simp only
  cases houtcome : ((each (showVisible a context granted) users).run d).outcome with
  | error f =>
    rw [outcome_bind_of_error houtcome]
    rfl
  | ok rows =>
    rw [outcome_bind_of_ok houtcome]
    rfl

/-- **The list.**  If the caller is granted the action and the levels are found, then the list
shows the users that are visible through these levels, in the order of the directory. -/
theorem outcome_list (hcaller : a.caller = .resolved context)
    (hc : a.registry.Accepts a.interpretation context)
    (hpermission :
      (listPermission.decide a.interpretation a.registry context).outcome = .ok .granted)
    (hlevels : (listLevels.decide a.interpretation a.registry context).outcome =
      .ok (.levels (some granted)))
    {users : List User}
    (husers : (afterEvents d (listQuestions a.interpretation a.registry context)).list =
      .ok users) :
    ((list a).run d).outcome =
      ((users.filter fun u =>
          (visible a.interpretation (userLevels a.registry) context u granted).2).mapM
        present).map fun rows => Response.json 200 (.list rows) := by
  have hpermitted := Access.run_permitted d hcaller hc hpermission
  have hfound : ((Query.levels Rulebook.userMember UserAction.list.member).decide
      a.interpretation a.registry context).outcome = .ok (.levels (some granted)) := hlevels
  rw [listQuestions, afterEvents_append] at husers
  rw [list, outcome_bind_of_ok (congrArg Result.outcome hpermitted), hpermitted]
  simp only [Access.decide]
  rw [run_ofRun_bind hfound]
  exact outcome_rows husers

/-- **The list agrees with the engine.**  Take any registry that can be come by, a context that
counts, and the levels through which the engine says that it may list users.

* A user is visible through these levels if and only if the engine decides, for this user, that
  the action is allowed.
* The engine answers so if and only if moreover the record of the decision is taken.
* If the action is granted, the list shows exactly the users for whom it is decided so, in the
  order of the directory. -/
theorem listing_agrees (hr : r.Reachable) (hc : r.Accepts i context)
    (hlevels : (listLevels.decide i r context).outcome = .ok (.levels (some granted))) :
    (∀ u, (visible i (userLevels r) context u granted).2 = true ↔
      (listInstance u).allows i r context = true) ∧
    (∀ u, ((listInstance u).decide i r context).outcome = .ok .granted ↔
      (visible i (userLevels r) context u granted).2 = true ∧
        (listInstance u).Taken i r context) ∧
    ((listPermission.decide i r context).outcome = .ok .granted →
      ∀ d users, (afterEvents d (listQuestions i r context)).list = .ok users →
        ((list ⟨i, r, .resolved context⟩).run d).outcome =
          ((users.filter fun u => (listInstance u).allows i r context).mapM present).map
            fun rows => Response.json 200 (.list rows)) := by
  have hvisible := visible_eq_allows hr hc hlevels
  refine ⟨fun u => ?_, fun u => ?_, fun hpermission d users husers => ?_⟩
  · rw [hvisible u]
  · rw [hvisible u]
    exact decide_instanceOf_iff hc
  · have hlist := outcome_list (a := ⟨i, r, .resolved context⟩) rfl hc hpermission hlevels husers
    rw [hlist]
    simp only [hvisible]

/-- A user with this id and this rank. -/
def userOfRank (userId : String) (rank : Value) : User where
  userId := .text userId
  email := .text ""
  role := .text Role.agent.name
  rank := rank
  status := Status.active.member
  displayName := .text ""
  assignedUsers := .list []

/-- A user of higher authority than an administrator, one of lower authority, and one without. -/
def ranks : List User :=
  [userOfRank "s1" (.int 0), userOfRank "g1" (.int 3), userOfRank "g2" .null]

/-- The case of an administrator, who sees the user of lower authority only. -/
theorem listing_agrees_admin :
    (Rulebook.registry true).Reachable ∧
    (Rulebook.registry true).Accepts .standard adminContext ∧
    (listLevels.decide .standard (Rulebook.registry true) adminContext).outcome =
      .ok (.levels (some [Rulebook.levelName .byRank])) ∧
    (ranks.map fun u => (visible .standard (userLevels (Rulebook.registry true)) adminContext u
      [Rulebook.levelName .byRank]).2) = [false, true, false] ∧
    (∀ u, ((listInstance u).decide .standard (Rulebook.registry true) adminContext).outcome =
        .ok .granted ↔
      (visible .standard (userLevels (Rulebook.registry true)) adminContext u
          [Rulebook.levelName .byRank]).2 = true ∧
        (listInstance u).Taken .standard (Rulebook.registry true) adminContext) ∧
    ((list ⟨.standard, Rulebook.registry true, .resolved adminContext⟩).run ⟨ranks⟩).outcome =
      ((ranks.filter fun u =>
          (listInstance u).allows .standard (Rulebook.registry true) adminContext).mapM
        present).map fun rows => Response.json 200 (.list rows) := by
  have hr := Rulebook.reachable_registry true
  have hc := accepts_adminContext
  have hlevels : (listLevels.decide .standard (Rulebook.registry true) adminContext).outcome =
      .ok (.levels (some [Rulebook.levelName .byRank])) := rfl
  have hpermission : (listPermission.decide .standard (Rulebook.registry true)
      adminContext).outcome = .ok .granted := rfl
  obtain ⟨-, hanswer, hlist⟩ := listing_agrees hr hc hlevels
  exact ⟨hr, hc, hlevels, rfl, hanswer, hlist hpermission ⟨ranks⟩ ranks rfl⟩

/-- A sink that takes the records of queries of levels only. -/
def levelSink : Callable :=
  .defined "levels_only" (.context "access_levels")

/-- With a sink that does not take the records of instance queries, the engine does not answer,
although the user is listed. -/
theorem listed_without_answer :
    ∃ r : Registry, r.Reachable ∧ r.Accepts .standard adminContext ∧
      (listLevels.decide .standard r adminContext).outcome =
        .ok (.levels (some [Rulebook.levelName .byRank])) ∧
      ¬ ((visible .standard (userLevels r) adminContext (userOfRank "g1" (.int 3))
            [Rulebook.levelName .byRank]).2 = true ↔
          ((listInstance (userOfRank "g1" (.int 3))).decide .standard r adminContext).outcome =
            .ok .granted) := by
  have hr : { Rulebook.registry true with sink := levelSink }.Reachable :=
    Registry.Reachable.step (.setSink (.callable levelSink)) (Rulebook.reachable_registry true)
  have hc := accepts_adminContext
  refine ⟨_, hr, ⟨rfl, rfl, hc.passes⟩, rfl, fun h => ?_⟩
  have hanswer := h.mp rfl
  cases hanswer

end UserRoutes

end Http

end AccessControl
