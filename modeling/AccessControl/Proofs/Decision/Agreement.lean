import AccessControl.Proofs.Decision.Record
import AccessControl.Proofs.Registry.Coherence

/-!
# The questions agree with one another

Whether an action is granted can be asked in three ways: through which levels, through all of some
levels, and on an instance.  The three are answered by code of their own, and a caller may rely on
the answers fitting together.

## Where they could come apart

A permission query that names levels makes two comparisons, and the first of them is not with the
levels held but with all levels of the rulebook: a level that the rulebook does not know is
refused as such.  For the query to agree with the query of levels, the first comparison must not
refuse anything that is held; and that is the coherence of the rulebook,
`knowsLevel_of_held`.

An instance query tries the levels held, so what it allows is held (`answerInstance_of_held`).

With the four questions reduced to the levels held (`granted_iff`, `levels_iff`), the agreement is
a comparison of lists.
-/

namespace AccessControl

variable {i : Interpretation} {r : Registry} {context resource action : Value} {q : Query}

/-! ## 1. Answers -/

/-- A run that goes on and succeeds has succeeded so far. -/
theorem Run.exists_of_bind {α β : Type} {run : Run α} {f : α → Run β} {b : β}
    (h : (run.bind f).outcome = .ok b) : ∃ a, run.outcome = .ok a ∧ (f a).outcome = .ok b := by
  cases hrun : run.outcome with
  | error e =>
    rw [Run.bind_of_error hrun] at h
    cases h
  | ok a =>
    rw [Run.bind_of_ok hrun] at h
    exact ⟨a, rfl, h⟩

/-- An answer is that of something that has been found, for the role of the context. -/
theorem exists_find_of_decide {answer : Answer} (h : (q.decide i r context).outcome = .ok answer) :
    ∃ f, (q.find i r context ((contextRole? context).getD .null)).outcome = .ok f ∧
      f.answer = answer := by
  rw [Query.decide] at h
  split at h
  · obtain ⟨-, -, h⟩ := Run.exists_of_bind h
    obtain ⟨-, -, h⟩ := Run.exists_of_bind h
    cases h
  · obtain ⟨-, -, h⟩ := Run.exists_of_bind h
    obtain ⟨f, hf, h⟩ := Run.exists_of_bind h
    obtain ⟨-, -, h⟩ := Run.exists_of_bind h
    refine ⟨f, hf, ?_⟩
    split at h
    · cases h
    · exact Except.ok.inj h

/-- A question is answered only for a context that counts. -/
theorem accepts_of_decide_ok {answer : Answer} (h : (q.decide i r context).outcome = .ok answer) :
    r.Accepts i context := by
  obtain ⟨asked, -, hcourse⟩ := exists_course q i r context
  generalize q.decide i r context = run at hcourse h
  cases hcourse with
  | unanswered e => cases h
  | recorded a answer' ending _ hending =>
    cases hending with
    | answered _ hcontext => exact hcontext
    | _ => cases h

/-- The sink takes every record that it is given. -/
def Registry.SinkWorks (r : Registry) (i : Interpretation) : Prop :=
  ∀ a, Recorded i r a

/-- A finding ends with its answer, if its record is taken and it is no denial that is raised. -/
theorem conclude_ok_iff (hc : r.Accepts i context) {f : Finding} {answer : Answer} :
    (f.conclude i r context q).outcome = .ok answer ↔
      f.answer = answer ∧ (f.verdict = .allow ∨ q.raisesDenial = false) ∧
        Recorded i r (f.audit q.resource context) := by
  have hending := ending_of_finding (q := q) f hc
  generalize f.conclude i r context q = ending at hending
  cases hending with
  | sinkFailed e hlog hfailed =>
    constructor
    · intro h
      cases h
    · rintro ⟨-, -, hrecorded⟩
      rw [hrecorded hlog] at hfailed
      cases hfailed
  | unauthenticated _ hcontext => exact absurd hc hcontext
  | unauthorized _ _ hdenied hraises =>
    constructor
    · intro h
      cases h
    · rintro ⟨-, hallow | hquiet, -⟩
      · rw [show f.verdict = .deny from hdenied] at hallow
        cases hallow
      · rw [hraises] at hquiet
        cases hquiet
  | answered hrecorded _ hallowed =>
    exact ⟨fun h => ⟨Except.ok.inj h, hallowed, hrecorded⟩, fun h => congrArg Except.ok h.1⟩

/-- When the context counts, a question is answered with what is found, if the record of it is
taken. -/
theorem decide_recorded_iff (hc : r.Accepts i context) {answer : Answer} :
    (q.decide i r context).outcome = .ok answer ↔
      ∃ f, (q.find i r context ((contextRole? context).getD .null)).outcome = .ok f ∧
        f.answer = answer ∧ (f.verdict = .allow ∨ q.raisesDenial = false) ∧
        Recorded i r (f.audit q.resource context) := by
  have hscreen := screen_eq_none_iff.mpr hc
  rcases hs : screen i r context with ⟨events, objection⟩
  rw [hs] at hscreen
  cases hscreen
  simp only [Query.decide, hs]
  rw [Run.bind_of_ok rfl]
  cases hfound : (q.find i r context ((contextRole? context).getD .null)).outcome with
  | error e =>
    rw [Run.bind_of_error hfound]
    constructor
    · intro h
      cases h
    · rintro ⟨f, hf, -⟩
      cases hf
  | ok f =>
    rw [Run.bind_of_ok hfound]
    simp only [conclude_ok_iff hc]
    constructor
    · exact fun h => ⟨f, rfl, h⟩
    · rintro ⟨f', hf, h⟩
      cases hf
      exact h

/-- When moreover the sink takes every record, a question is answered with what is found. -/
theorem decide_ok_iff (hsink : r.SinkWorks i) (hc : r.Accepts i context) {answer : Answer} :
    (q.decide i r context).outcome = .ok answer ↔
      ∃ f, (q.find i r context ((contextRole? context).getD .null)).outcome = .ok f ∧
        f.answer = answer ∧ (f.verdict = .allow ∨ q.raisesDenial = false) := by
  rw [decide_recorded_iff hc]
  constructor
  · rintro ⟨f, hf, hanswer, hallowed, -⟩
    exact ⟨f, hf, hanswer, hallowed⟩
  · rintro ⟨f, hf, hanswer, hallowed⟩
    exact ⟨f, hf, hanswer, hallowed, hsink _⟩

/-- A question whose denial is raised is refused when a denial is found. -/
theorem refused_of_denied (hsink : r.SinkWorks i) (hc : r.Accepts i context) {f : Finding}
    (hf : (q.find i r context ((contextRole? context).getD .null)).outcome = .ok f)
    (hdenied : f.verdict = .deny) (hraised : q.raisesDenial = true) :
    (q.decide i r context).outcome =
      .error (i.refuse r.authzRefusal (f.audit q.resource context)) := by
  obtain ⟨asked, -, hcourse⟩ := exists_course q i r context
  generalize q.decide i r context = run at hcourse
  cases hcourse with
  | unanswered e _ _ herror =>
    rw [hf] at herror
    cases herror
  | recorded a answer ending hrecord hending =>
    rw [record?_of_find hc hf] at hrecord
    cases hrecord
    cases hending with
    | sinkFailed e hlog hfailed =>
      rw [hsink _ hlog] at hfailed
      cases hfailed
    | unauthenticated _ hcontext => exact absurd hc hcontext
    | unauthorized _ _ _ _ => rfl
    | answered _ _ hallowed =>
      rcases hallowed with hallow | hquiet
      · exact Verdict.noConfusion (hdenied.symm.trans hallow)
      · rw [hraised] at hquiet
        cases hquiet

/-! ## 2. The answers in terms of the levels held -/

/-- The levels through which the principal of a context holds an action. -/
def Registry.contextLevels (r : Registry) (context resource action : Value) :
    Except Fault (List Value) :=
  r.heldLevels ((contextRole? context).getD .null) resource.name action.name

/-- Levels that are the answer to a query are held. -/
theorem held_of_levels {found : List Value}
    (h : ((Query.levels resource action).decide i r context).outcome =
      .ok (.levels (some found))) :
    r.contextLevels context resource action = .ok found ∧ found ≠ [] := by
  obtain ⟨f, hf, hanswer⟩ := exists_find_of_decide h
  have hfind : answerLevels r ((contextRole? context).getD .null) resource.name action.name =
      .ok f := hf
  rw [answerLevels_eq] at hfind
  obtain ⟨held, hheld⟩ := held_of_lookUp hfind
  rcases lookUp_of_held hheld with ⟨rfl, hnone | ⟨m, hnone⟩⟩ | ⟨m, -, hfound⟩
  · rw [hnone] at hfind
    cases hfind
    cases hanswer
  · rw [hnone] at hfind
    cases hfind
    cases hanswer
  · rw [hfound, foundLevels] at hfind
    split at hfind
    · cases hfind
      cases hanswer
    · rename_i hsome
      obtain ⟨names, -, hfind⟩ := bind_eq_ok_iff.mp hfind
      cases hfind
      cases hanswer
      exact ⟨hheld, fun hnil => hsome (List.isEmpty_iff.mpr hnil)⟩

/-- A query of levels answers with the levels held. -/
theorem levels_iff (hnames : r.ListsTexts) (hsink : r.SinkWorks i) (hc : r.Accepts i context)
    {found : List Value} :
    ((Query.levels resource action).decide i r context).outcome = .ok (.levels (some found)) ↔
      r.contextLevels context resource action = .ok found ∧ found ≠ [] := by
  constructor
  · exact held_of_levels
  · rintro ⟨hheld, hne⟩
    rw [decide_ok_iff hsink hc]
    obtain ⟨f, hf, h | h⟩ := answerLevels_of_held hheld (isText_of_heldLevels hnames hheld)
    · exact ⟨f, hf, h.2.2.2, Or.inr rfl⟩
    · exact absurd h.1 hne

/-- A permission query is answered when levels are held, and all that are asked for are known
and held. -/
theorem granted_iff (hnames : r.ListsTexts) (hsink : r.SinkWorks i) (hc : r.Accepts i context)
    {requested : List Value} (hrequested : ∀ l ∈ requested, l.IsText) :
    ((Query.permission resource action requested).decide i r context).outcome = .ok .granted ↔
      ∃ found, r.contextLevels context resource action = .ok found ∧ found ≠ [] ∧
        (∀ l ∈ requested, r.KnowsLevel resource.name l) ∧
        ∀ l ∈ requested, found.any (Value.same · l) = true := by
  rw [decide_ok_iff hsink hc]
  constructor
  · rintro ⟨f, hf, -, hallow | hquiet⟩
    · obtain ⟨held, hheld⟩ := held_of_lookUp ((answerPermission_eq ..).symm.trans hf)
      obtain ⟨f', hf', -, -, hverdict⟩ :=
        answerPermission_of_held hheld (isText_of_heldLevels hnames hheld) hrequested
      rw [show f = f' from Except.ok.inj (hf.symm.trans hf')] at hallow
      exact ⟨held, hheld, hverdict.mp hallow⟩
    · cases hquiet
  · rintro ⟨found, hheld, hall⟩
    obtain ⟨f, hf, -, hanswer, hverdict⟩ :=
      answerPermission_of_held hheld (isText_of_heldLevels hnames hheld) hrequested
    exact ⟨f, hf, hanswer, Or.inl (hverdict.mpr hall)⟩

/-- **A level that is held is known.**  In a coherent registry the first comparison of a
permission query refuses nothing that the second would let pass. -/
theorem knowsLevel_of_held (hr : r.Coherent) (hnames : r.ListsTexts) {role level : Value}
    {found : List Value} (hheld : r.heldLevels role resource action = .ok found)
    (hlevel : level.IsText) (hsame : found.any (Value.same · level) = true) :
    r.KnowsLevel resource level := by
  obtain ⟨l, hl, hl'⟩ := List.any_eq_true.mp hsame
  obtain ⟨name, m, g, a, hm, hdef, hg, ha⟩ := exists_listed_of_heldLevels hheld hl
  refine ⟨m, hdef, ?_⟩
  have hlisted := (hr name m hm g hg).levels (a, found) ha l hl
  obtain ⟨k, hk, hk'⟩ := List.any_eq_true.mp hlisted
  rw [List.any_eq_true]
  exact ⟨k, hk, Value.same_trans_of_isText
    (hnames name m hm g hg (a, found) ha l hl) hlevel hk' hl'⟩

/-! ## 3. The agreement -/

/-- In a registry that can be come by, a permission query is answered when levels are held and
all that are asked for are among them. -/
theorem granted_iff_levels (hr : r.Reachable) (hnames : r.ListsTexts) (hsink : r.SinkWorks i)
    (hc : r.Accepts i context) {requested : List Value} (hrequested : ∀ l ∈ requested, l.IsText) :
    ((Query.permission resource action requested).decide i r context).outcome = .ok .granted ↔
      ∃ found,
        ((Query.levels resource action).decide i r context).outcome = .ok (.levels (some found)) ∧
        ∀ l ∈ requested, found.any (Value.same · l) = true := by
  rw [granted_iff hnames hsink hc hrequested]
  constructor
  · rintro ⟨found, hheld, hne, -, hall⟩
    exact ⟨found, (levels_iff hnames hsink hc).mpr ⟨hheld, hne⟩, hall⟩
  · rintro ⟨found, hanswer, hall⟩
    obtain ⟨hheld, hne⟩ := (levels_iff hnames hsink hc).mp hanswer
    have hknown : ∀ l ∈ requested, r.KnowsLevel resource.name l := fun l hl =>
      knowsLevel_of_held hr.coherent hnames hheld (hrequested l hl) (hall l hl)
    exact ⟨found, hheld, hne, hknown, hall⟩

/-- An instance query that is allowed is allowed through one of the levels held. -/
theorem held_of_allowed_instance (hnames : r.ListsTexts) (hsink : r.SinkWorks i)
    (hc : r.Accepts i context) {inst : Value}
    (h : ((Query.instanceOf resource action inst).decide i r context).outcome = .ok .granted) :
    ∃ (level : Value) (found : List Value) (a : Audit),
      (Query.instanceOf resource action inst).record? i r context = some a ∧
      a.message = .text ("Access granted through access level '" ++ level.plain ++ "'") ∧
      r.contextLevels context resource action = .ok found ∧ level ∈ found := by
  obtain ⟨f, hf, -, hallow | hquiet⟩ := (decide_ok_iff hsink hc).mp h
  · have hrecord : (Query.instanceOf resource action inst).record? i r context =
        some (f.audit resource.name context) := record?_of_find hc hf
    rcases answerInstance_cases i r context ((contextRole? context).getD .null) resource.name
      action.name inst with ⟨e, -, hrun⟩ | ⟨id, message, -, hrun⟩ | ⟨m, found, hheld, -, -, -⟩
    · rw [Query.find, hrun] at hf
      cases hf
    · rw [Query.find, hrun] at hf
      cases hf
      cases hallow
    · obtain ⟨f', hf', -, -, hthrough⟩ :=
        answerInstance_of_held (i := i) hheld (isText_of_heldLevels hnames hheld)
      rw [show f = f' from Except.ok.inj (hf.symm.trans hf')] at hallow hrecord
      obtain ⟨level, hlevel, hmessage, -⟩ := hthrough hallow
      exact ⟨level, found, _, hrecord, congrArg Value.text hmessage, hheld, hlevel⟩
  · cases hquiet

/-- **The questions agree with one another.**  In every registry that can be come by, and for
every context that counts:

* an action is granted through all of some levels exactly when the query of levels gives a list
  that has them all;
* to name no levels is to name the empty list of them;
* what is granted through some levels is granted through any of these, in any order and however
  often they are named;
* what is allowed on an instance is allowed through a level that the query of levels gives, the
  one named in the record, and it is granted as such. -/
theorem decisions_agree (hr : r.Reachable) (hnames : r.ListsTexts) (hsink : r.SinkWorks i)
    (hc : r.Accepts i context) (resource action : Value) :
    (∀ filter requested, requestedLevels filter = .ok requested → (∀ l ∈ requested, l.IsText) →
      ((hasPermission i r context resource action filter).outcome = .ok .granted ↔
        ∃ found,
          ((Query.levels resource action).decide i r context).outcome =
            .ok (.levels (some found)) ∧
          ∀ l ∈ requested, found.any (Value.same · l) = true)) ∧
    hasPermission i r context resource action .null =
      hasPermission i r context resource action (.list []) ∧
    (∀ named some', (∀ l ∈ named, l.IsText) → some' ⊆ named →
      (hasPermission i r context resource action (.list named)).outcome = .ok .granted →
      (hasPermission i r context resource action (.list some')).outcome = .ok .granted) ∧
    (∀ inst,
      ((Query.instanceOf resource action inst).decide i r context).outcome = .ok .granted →
      ∃ (level : Value) (found : List Value) (a : Audit),
        (Query.instanceOf resource action inst).record? i r context = some a ∧
        a.message = .text ("Access granted through access level '" ++ level.plain ++ "'") ∧
        ((Query.levels resource action).decide i r context).outcome =
          .ok (.levels (some found)) ∧ level ∈ found ∧
        (hasPermission i r context resource action .null).outcome = .ok .granted) := by
  refine ⟨fun filter requested hfilter hrequested => ?_, rfl, ?_, ?_⟩
  · rw [hasPermission, hfilter]
    exact granted_iff_levels hr hnames hsink hc hrequested
  · intro named some' hnamed hsub hgranted
    have hsub' : some'.map Value.name ⊆ named.map Value.name := List.map_subset _ hsub
    have htexts : ∀ l ∈ named.map Value.name, l.IsText := by
      intro l hl
      obtain ⟨v, hv, rfl⟩ := List.mem_map.mp hl
      exact (hnamed v hv).name
    rw [hasPermission_list, granted_iff_levels hr hnames hsink hc htexts] at hgranted
    obtain ⟨found, hfound, hall⟩ := hgranted
    rw [hasPermission_list,
      granted_iff_levels hr hnames hsink hc fun l hl => htexts l (hsub' hl)]
    exact ⟨found, hfound, fun l hl => hall l (hsub' hl)⟩
  · intro inst hallowed
    obtain ⟨level, found, a, hrecord, hmessage, hheld, hlevel⟩ :=
      held_of_allowed_instance hnames hsink hc hallowed
    have hlevels := (levels_iff hnames hsink hc).mpr ⟨hheld, List.ne_nil_of_mem hlevel⟩
    refine ⟨level, found, a, hrecord, hmessage, hlevels, hlevel, ?_⟩
    exact (granted_iff_levels hr hnames hsink hc (by simp)).mpr ⟨found, hlevels, by simp⟩

/-- The log of the application takes every record. -/
theorem sinkWorks_registry (logging : Bool) :
    (Rulebook.registry logging).SinkWorks .standard :=
  fun _ _ => rfl

theorem accepts_adminContext : (Rulebook.registry true).Accepts .standard adminContext where
  bound := rfl
  hasRole := rfl
  passes := by
    intro c hc
    rw [List.mem_singleton.mp hc]
    exact ⟨.bool true, rfl, rfl⟩

/-- A user whose authority is below that of an administrator. -/
def agentValue : Value :=
  .record .user [("user_id", .text "g1"), ("rank", .int 3)]

/-- The case of an administrator in the registry of the application, who may change an agent. -/
theorem decisions_agree_admin :
    (Rulebook.registry true).Reachable ∧ (Rulebook.registry true).ListsTexts ∧
    (Rulebook.registry true).SinkWorks .standard ∧
    (Rulebook.registry true).Accepts .standard adminContext ∧
    ((hasPermission .standard (Rulebook.registry true) adminContext Rulebook.userMember
        UserAction.update.member (.list [UserLevel.byRank.member])).outcome = .ok .granted ↔
      ∃ found,
        ((Query.levels Rulebook.userMember UserAction.update.member).decide .standard
          (Rulebook.registry true) adminContext).outcome = .ok (.levels (some found)) ∧
        ∀ l ∈ [UserLevel.byRank.member.name], found.any (Value.same · l) = true) ∧
    ((hasPermission .standard (Rulebook.registry true) adminContext Rulebook.userMember
        UserAction.update.member (.list [UserLevel.byRank.member])).outcome = .ok .granted →
      (hasPermission .standard (Rulebook.registry true) adminContext Rulebook.userMember
        UserAction.update.member (.list [])).outcome = .ok .granted) ∧
    ∃ (level : Value) (found : List Value) (a : Audit),
      (Query.instanceOf Rulebook.userMember UserAction.update.member agentValue).record? .standard
        (Rulebook.registry true) adminContext = some a ∧
      a.message = .text ("Access granted through access level '" ++ level.plain ++ "'") ∧
      ((Query.levels Rulebook.userMember UserAction.update.member).decide .standard
        (Rulebook.registry true) adminContext).outcome = .ok (.levels (some found)) ∧
      level ∈ found ∧
      (hasPermission .standard (Rulebook.registry true) adminContext Rulebook.userMember
        UserAction.update.member .null).outcome = .ok .granted := by
  have hr := Rulebook.reachable_registry true
  have hnames := Rulebook.listsTexts_registry true
  have hsink := sinkWorks_registry true
  have hc := accepts_adminContext
  obtain ⟨hfilter, -, hsub, hinstance⟩ :=
    decisions_agree hr hnames hsink hc Rulebook.userMember UserAction.update.member
  have hlevel : ∀ l ∈ [UserLevel.byRank.member], l.IsText := by
    intro l hl
    rw [List.mem_singleton.mp hl]
    exact ⟨_, rfl⟩
  have hname : ∀ l ∈ [UserLevel.byRank.member.name], l.IsText := by
    intro l hl
    rw [List.mem_singleton.mp hl]
    exact ⟨_, rfl⟩
  have hallowed : ((Query.instanceOf Rulebook.userMember UserAction.update.member agentValue).decide
      .standard (Rulebook.registry true) adminContext).outcome = .ok .granted := rfl
  exact ⟨hr, hnames, hsink, hc, hfilter _ _ rfl hname, hsub _ _ hlevel (List.nil_subset _),
    hinstance agentValue hallowed⟩

end AccessControl
