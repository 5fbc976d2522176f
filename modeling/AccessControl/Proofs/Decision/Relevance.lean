import AccessControl.Proofs.Decision.Agreement

/-!
# What a decision depends on

A registry holds much that has no part in a given decision: other resources, the grants of other
roles, levels that are not listed, the priorities of levels, the default role, and the order in
which anything was declared.  This module says what does have a part, by comparing two registries.

## Hooks and rulebook

A decision begins with the checks and ends with the sink and the refusals; what lies between is
answered from the rulebook of the one resource.  So two registries with the same hooks decide a
question alike if they give the same rulebook for its resource, `decidesAs_of_resourceDefinition`.

## The relevant part of a rulebook

Of the rulebook, a question reads the field that identifies an instance, the entry of the role,
in it the levels of the action and the relationships, and of the levels listed their functions.
In two rulebooks that agree on these, `Metadata.AgreesOn`, each of the four questions finds the
same (`answerInstance_congr` and the lemmas before it).  The only loop is the one that tries the
levels, and the induction over it is `tryLevels_congr`.

## The relevant part of an instance

An instance is read by the functions of the levels and for its id, by nobody else.  So two instances
about which these say the same are decided about alike, `decide_congr_instance`.
-/

namespace AccessControl

variable {i : Interpretation} {r s : Registry} {m n : Metadata} {g h : Grant}
  {context role resource action : Value} {q : Query}

/-- The two registries check contexts, record decisions and refuse requests in the same way. -/
structure Registry.SameHooks (r s : Registry) : Prop where
  checks : r.checks = s.checks
  logging : r.logging = s.logging
  sink : r.sink = s.sink
  authnRefusal : r.authnRefusal = s.authnRefusal
  authzRefusal : r.authzRefusal = s.authzRefusal

namespace Registry.SameHooks

theorem refl (r : Registry) : r.SameHooks r := ⟨rfl, rfl, rfl, rfl, rfl⟩

theorem trans {t : Registry} (h : r.SameHooks s) (h' : s.SameHooks t) : r.SameHooks t where
  checks := h.checks.trans h'.checks
  logging := h.logging.trans h'.logging
  sink := h.sink.trans h'.sink
  authnRefusal := h.authnRefusal.trans h'.authnRefusal
  authzRefusal := h.authzRefusal.trans h'.authzRefusal

end Registry.SameHooks

/-- The two registries decide the question alike: the same functions are called and the same
lines logged, in the same order, the answer or the error is the same, and so is the record. -/
structure Registry.DecidesAs (r s : Registry) (i : Interpretation) (context : Value)
    (q : Query) : Prop where
  run : q.decide i r context = q.decide i s context
  record : q.record? i r context = q.record? i s context

/-- The two grants say the same of an action and of relationships: the levels of the action are
the same ones in the same order, and the relationships are the same as a set. -/
structure Grant.AgreesOn (g h : Grant) (action : Value) : Prop where
  levels : Value.find? action g.permissions = Value.find? action h.permissions
  relationships : ∀ held,
    g.relationships.any (Value.same · held) = h.relationships.any (Value.same · held)

/-- The entry of a role in a rulebook, if there is one. -/
def Metadata.grant? (m : Metadata) (role : Value) : Option Grant :=
  role.text?.bind fun name => m.grants.lookup name

/-- The two rulebooks agree on a role and an action: an instance is identified by the same field,
the entries of the role agree, and every level that is listed for the action has the same
function. -/
structure Metadata.AgreesOn (m n : Metadata) (role action : Value) : Prop where
  identifier : m.identifier = n.identifier
  grants : Option.Rel (fun g h => g.AgreesOn h action) (m.grant? role) (n.grant? role)
  functions : ∀ g levels, m.grant? role = some g → Value.find? action g.permissions = some levels →
    ∀ level ∈ levels, (Value.find? level m.levels).map AccessLevel.fn =
      (Value.find? level n.levels).map AccessLevel.fn

/-! ## 1. The beginning and the end of a decision -/

theorem screen_congr (h : r.checks = s.checks) : screen i r context = screen i s context := by
  rw [screen, screen, h]

theorem deliver_congr (hh : r.SameHooks s) (a : Audit) : deliver i r a = deliver i s a := by
  rw [deliver, deliver, hh.logging, hh.sink]

theorem conclude_congr (hh : r.SameHooks s) (f : Finding) :
    f.conclude i r context q = f.conclude i s context q := by
  simp only [Finding.conclude, deliver_congr hh, hh.authzRefusal]

/-- **Decisions differ in what is found.**  With the same hooks, two registries in which the same
is found for the role of the context decide alike. -/
theorem decidesAs_of_find (hh : r.SameHooks s)
    (hfind : ∀ role, contextRole? context = some role →
      q.find i r context role = q.find i s context role) : r.DecidesAs s i context q := by
  have hscreen : screen i r context = screen i s context := screen_congr hh.checks
  rcases hs : screen i s context with ⟨events, objection⟩
  rw [hs] at hscreen
  cases objection with
  | some why =>
    constructor
    · simp only [Query.decide, hscreen, hs, deliver_congr hh, hh.authnRefusal]
    · simp only [Query.record?, hscreen, hs]
  | none =>
    have haccepts : s.Accepts i context := by
      rw [← screen_eq_none_iff, hs]
    obtain ⟨role, hrole⟩ := Option.isSome_iff_exists.mp haccepts.hasRole
    have hconclude : Finding.conclude i r context q = Finding.conclude i s context q :=
      funext fun f => conclude_congr hh f
    constructor
    · simp only [Query.decide, hscreen, hs, hrole, Option.getD_some, hfind role hrole, hconclude]
    · simp only [Query.record?, hscreen, hs, hrole, Option.getD_some, hfind role hrole]

/-! ## 2. The rulebook of the resource -/

/-- What is found depends on the registry through the rulebook of the resource only. -/
theorem find_congr (hdef : r.resourceDefinition q.resource = s.resourceDefinition q.resource) :
    q.find i r context role = q.find i s context role := by
  cases q with
  | permission resource action levels =>
    have hdef' : r.resourceDefinition resource.name = s.resourceDefinition resource.name := hdef
    simp only [Query.find, answerPermission, hdef']
  | levels resource action =>
    have hdef' : r.resourceDefinition resource.name = s.resourceDefinition resource.name := hdef
    simp only [Query.find, answerLevels, hdef']
  | relationship resource held =>
    have hdef' : r.resourceDefinition resource.name = s.resourceDefinition resource.name := hdef
    simp only [Query.find, answerRelationship, hdef']
  | instanceOf resource action inst =>
    have hdef' : r.resourceDefinition resource.name = s.resourceDefinition resource.name := hdef
    simp only [Query.find, answerInstance, hdef']

/-- **Hooks and rulebook decide.**  Two registries with the same hooks and the same rulebook for
the resource of a question decide it alike. -/
theorem decidesAs_of_resourceDefinition (hh : r.SameHooks s)
    (hdef : r.resourceDefinition q.resource = s.resourceDefinition q.resource) :
    r.DecidesAs s i context q :=
  decidesAs_of_find hh fun _ _ => find_congr hdef

/-- A permission query is decided alike with any filter if it is with the levels that the filter
names. -/
theorem hasPermission_congr {filter : Value}
    (hq : ∀ requested, requestedLevels filter = .ok requested →
      r.DecidesAs s i context (.permission resource action requested)) :
    hasPermission i r context resource action filter =
      hasPermission i s context resource action filter := by
  rw [hasPermission, hasPermission]
  cases hfilter : requestedLevels filter with
  | error e => rfl
  | ok requested => exact (hq requested hfilter).run

/-! ## 3. The relevant part of a rulebook -/

theorem grantFor?_eq_grant? (m : Metadata) (role : Value) :
    grantFor? m role = (do role.requireKey Fault.misuse; return m.grant? role) := rfl

theorem levelsFor_congr (hg : g.AgreesOn h action) : levelsFor g action = levelsFor h action := by
  rw [levelsFor, levelsFor, hg.levels]

/-- Levels with the same functions are tried in the same way. -/
theorem tryLevels_congr {inst : Value} {levels : List Value}
    (hfns : ∀ level ∈ levels, (Value.find? level m.levels).map AccessLevel.fn =
      (Value.find? level n.levels).map AccessLevel.fn) :
    tryLevels i m resource context inst levels = tryLevels i n resource context inst levels := by
  induction levels with
  | nil => rfl
  | cons level rest ih =>
    rw [List.forall_mem_cons] at hfns
    obtain ⟨hlevel, hrest⟩ := hfns
    rw [tryLevels, tryLevels, ih hrest]
    cases hm : Value.find? level m.levels with
    | none =>
      rw [hm, Option.map_none, eq_comm, Option.map_eq_none_iff] at hlevel
      rw [hlevel]
    | some l =>
      rw [hm, Option.map_some, eq_comm, Option.map_eq_some_iff] at hlevel
      obtain ⟨l', hn, hfn⟩ := hlevel
      simp only [hn, hfn]

/-- Either both rulebooks have no entry for the role, or both have one and the two agree. -/
theorem Metadata.AgreesOn.grant_cases (hagree : m.AgreesOn n role action) :
    (m.grant? role = none ∧ n.grant? role = none) ∨
      ∃ g h, m.grant? role = some g ∧ n.grant? role = some h ∧ g.AgreesOn h action := by
  have hgrants := hagree.grants
  cases hm : m.grant? role with
  | none =>
    cases hn : n.grant? role with
    | none => exact Or.inl ⟨rfl, rfl⟩
    | some h =>
      rw [hm, hn] at hgrants
      cases hgrants
  | some g =>
    cases hn : n.grant? role with
    | none =>
      rw [hm, hn] at hgrants
      cases hgrants
    | some h =>
      rw [hm, hn] at hgrants
      cases hgrants with
      | some hg => exact Or.inr ⟨g, h, rfl, rfl, hg⟩

section Agreement

variable (hr : r.resourceDefinition resource = .ok (some m))
  (hs : s.resourceDefinition resource = .ok (some n)) (hagree : m.AgreesOn n role action)

include hr hs hagree

/-- A question that only looks levels up finds the same in both registries, if it says the same
where there is no grant and answers the same once the levels are known. -/
theorem lookUp_congr {α : Type} {noRulebook : Except Fault α} {noGrant : Metadata → Except Fault α}
    {answer : Metadata → List Value → Except Fault α} (hnone : noGrant m = noGrant n)
    (hanswer : ∀ found, answer m found = answer n found) :
    r.lookUp role resource action noRulebook noGrant answer =
      s.lookUp role resource action noRulebook noGrant answer := by
  rw [Registry.lookUp, Registry.lookUp, hr, hs, ok_bind, ok_bind]
  simp only [grantFor?_eq_grant?]
  cases role.requireKey Fault.misuse with
  | error e => rfl
  | ok u =>
    simp only [ok_bind, pure_eq_ok]
    rcases hagree.grant_cases with ⟨hm, hn⟩ | ⟨g, h, hm, hn, hg⟩
    · simp only [hm, hn, hnone]
    · simp only [hm, hn, levelsFor_congr hg, hanswer]

theorem answerPermission_congr :
    answerPermission r role resource action [] = answerPermission s role resource action [] := by
  rw [answerPermission_eq, answerPermission_eq]
  exact lookUp_congr hr hs hagree rfl fun found => rfl

theorem answerLevels_congr :
    answerLevels r role resource action = answerLevels s role resource action := by
  rw [answerLevels_eq, answerLevels_eq]
  exact lookUp_congr hr hs hagree rfl fun found => rfl

/-- Of the entries only the relationships are read. -/
theorem answerRelationship_congr (relationship : Value) :
    answerRelationship r role resource relationship =
      answerRelationship s role resource relationship := by
  rw [answerRelationship, answerRelationship, hr, hs, ok_bind, ok_bind]
  simp only [grantFor?_eq_grant?]
  cases role.requireKey Fault.misuse with
  | error e => rfl
  | ok u =>
    simp only [ok_bind, pure_eq_ok]
    rcases hagree.grant_cases with ⟨hm, hn⟩ | ⟨g, h, hm, hn, hg⟩
    · simp only [hm, hn]
    · simp only [hm, hn, hg.relationships]

/-- The levels are tried with the same functions, and the instance is named by the same field. -/
theorem answerInstance_congr (inst : Value) :
    answerInstance i r context role resource action inst =
      answerInstance i s context role resource action inst := by
  rw [answerInstance, answerInstance, hr, hs]
  simp only [grantFor?_eq_grant?, hagree.identifier]
  cases role.requireKey Fault.misuse with
  | error e => rfl
  | ok u =>
    simp only [ok_bind, pure_eq_ok]
    rcases hagree.grant_cases with ⟨hm, hn⟩ | ⟨g, h, hm, hn, hg⟩
    · simp only [hm, hn]
    · simp only [hm, hn, ← levelsFor_congr hg]
      cases hfound : levelsFor g action with
      | error e => rfl
      | ok found =>
        cases found with
        | nil => rfl
        | cons level rest =>
          have hlisted : Value.find? action g.permissions = some (level :: rest) :=
            find?_of_levelsFor hfound (List.cons_ne_nil _ _)
          simp only [tryLevels_congr (hagree.functions g _ hm hlisted)]

end Agreement

/-! ## 4. The relevant part of an instance -/

/-- In a context, the levels of the rulebook say the same of two instances, and these have the same
id. -/
structure Metadata.SeesAlike (m : Metadata) (i : Interpretation) (context v w : Value) : Prop where
  named : readIdentifier v m.identifier = readIdentifier w m.identifier
  functions : ∀ level l, Value.find? level m.levels = some l →
    i.evaluate l.fn [context, v] = i.evaluate l.fn [context, w]

/-- Levels that say the same are tried in the same way. -/
theorem tryLevels_congr_instance {v w : Value} (h : m.SeesAlike i context v w)
    (levels : List Value) :
    tryLevels i m resource context v levels = tryLevels i m resource context w levels := by
  induction levels with
  | nil => rfl
  | cons level rest ih =>
    rw [tryLevels, tryLevels, ih]
    cases hfound : Value.find? level m.levels with
    | none => rfl
    | some l => simp only [h.functions level l hfound]

/-- Instances about which the same is found are decided about alike. -/
theorem decide_congr_of_find {v w : Value}
    (hfind : ∀ role, (Query.instanceOf resource action v).find i r context role =
      (Query.instanceOf resource action w).find i r context role) :
    (Query.instanceOf resource action v).decide i r context =
      (Query.instanceOf resource action w).decide i r context := by
  have hconclude : Finding.conclude i r context (.instanceOf resource action v) =
      Finding.conclude i r context (.instanceOf resource action w) := rfl
  simp only [Query.decide, hfind, hconclude]
  rfl

/-- **Instances are decided about alike** if the levels say the same of them. -/
theorem decide_congr_instance {v w : Value}
    (hdef : r.resourceDefinition resource.name = .ok (some m)) (h : m.SeesAlike i context v w) :
    (Query.instanceOf resource action v).decide i r context =
      (Query.instanceOf resource action w).decide i r context := by
  refine decide_congr_of_find fun role => ?_
  simp only [Query.find, answerInstance, hdef, h.named, tryLevels_congr_instance h]

/-- Instances of a resource without rulebook are decided about alike. -/
theorem decide_congr_undefined {v w : Value}
    (hdef : r.resourceDefinition resource.name = .ok none) :
    (Query.instanceOf resource action v).decide i r context =
      (Query.instanceOf resource action w).decide i r context := by
  refine decide_congr_of_find fun role => ?_
  simp only [Query.find, answerInstance, hdef]

/-! ## 5. The decisions -/

/-- **What decisions depend on.**  Let two registries have the same hooks, and let both define a
resource, by rulebooks that agree on an action and on the role of the context, if it has one.
Then the four questions are decided alike: may the action be applied to an instance, through which
levels is it granted, is a relationship held, and is the action granted at all. -/
theorem decided_alike (hh : r.SameHooks s) (hr : r.resourceDefinition resource.name = .ok (some m))
    (hs : s.resourceDefinition resource.name = .ok (some n))
    (hagree : ∀ role, contextRole? context = some role → m.AgreesOn n role action.name) :
    (∀ inst, r.DecidesAs s i context (.instanceOf resource action inst)) ∧
    r.DecidesAs s i context (.levels resource action) ∧
    (∀ held, r.DecidesAs s i context (.relationship resource held)) ∧
    r.DecidesAs s i context (.permission resource action []) ∧
    ∀ filter, requestedLevels filter = .ok [] →
      hasPermission i r context resource action filter =
        hasPermission i s context resource action filter := by
  have hpermission : r.DecidesAs s i context (.permission resource action []) :=
    decidesAs_of_find hh fun role hrole =>
      congrArg Run.ofExcept (answerPermission_congr hr hs (hagree role hrole))
  refine ⟨fun inst => ?_, ?_, fun held => ?_, hpermission, fun filter hfilter => ?_⟩
  · exact decidesAs_of_find hh fun role hrole => answerInstance_congr hr hs (hagree role hrole) inst
  · exact decidesAs_of_find hh fun role hrole =>
      congrArg Run.ofExcept (answerLevels_congr hr hs (hagree role hrole))
  · exact decidesAs_of_find hh fun role hrole =>
      congrArg Run.ofExcept (answerRelationship_congr hr hs (hagree role hrole) held.name)
  · refine hasPermission_congr fun requested hrequested => ?_
    rw [hfilter] at hrequested
    cases hrequested
    exact hpermission

namespace Rulebook

/-- The rulebook of users as it might have been declared: there is one more action, the levels
come in the opposite order and with other priorities, and only administrators are granted
anything. -/
def otherMetadata : Metadata where
  identifier := metadata.identifier
  actions := .text "AUDIT" :: metadata.actions.reverse
  levels := metadata.levels.reverse.map fun l => (l.1, ⟨l.2.fn, l.2.priority + 7⟩)
  relationships := .text "GUEST" :: metadata.relationships
  grants := [(Role.admin.name, ⟨(grantOf .admin).permissions.reverse, [.text "OWNER"]⟩)]

/-- A registry with that rulebook, with one more resource and another default role. -/
def otherRegistry (logging : Bool) : Registry :=
  { registry logging with
    resources := [("Invoice", none), (userResource, some otherMetadata)]
    index := []
    defaultRole := some Role.admin.name }

/-- The case of an administrator who changes users: the two registries decide alike, and so the
other one lets an agent be changed too. -/
theorem decided_alike_admin :
    (registry true).SameHooks (otherRegistry true) ∧
    (registry true).resourceDefinition userMember.name = .ok (some metadata) ∧
    (otherRegistry true).resourceDefinition userMember.name = .ok (some otherMetadata) ∧
    (∀ role, contextRole? adminContext = some role →
      metadata.AgreesOn otherMetadata role UserAction.update.member.name) ∧
    (∀ inst, (registry true).DecidesAs (otherRegistry true) .standard adminContext
      (.instanceOf userMember UserAction.update.member inst)) ∧
    hasPermission .standard (registry true) adminContext userMember UserAction.update.member .null =
      hasPermission .standard (otherRegistry true) adminContext userMember
        UserAction.update.member .null ∧
    ((Query.instanceOf userMember UserAction.update.member agentValue).decide .standard
      (otherRegistry true) adminContext).outcome = .ok .granted := by
  have hh : (registry true).SameHooks (otherRegistry true) := ⟨rfl, rfl, rfl, rfl, rfl⟩
  have hr : (registry true).resourceDefinition userMember.name = .ok (some metadata) := rfl
  have hs : (otherRegistry true).resourceDefinition userMember.name = .ok (some otherMetadata) :=
    rfl
  have hagree : ∀ role, contextRole? adminContext = some role →
      metadata.AgreesOn otherMetadata role UserAction.update.member.name := by
    intro role hrole
    have hadmin : some (Value.text Role.admin.name) = some role := hrole
    cases hadmin
    refine ⟨rfl, Option.Rel.some ⟨rfl, fun held => rfl⟩, fun g levels hg hlevels level hlevel => ?_⟩
    have hgrant : some (grantOf .admin) = some g := hg
    cases hgrant
    have hlisted : some [levelName .byRank] = some levels := hlevels
    cases hlisted
    rw [List.mem_singleton.mp hlevel]
    rfl
  obtain ⟨hinstance, -, -, -, hunfiltered⟩ := decided_alike (i := .standard) hh hr hs hagree
  have hallowed : ((Query.instanceOf userMember UserAction.update.member agentValue).decide
      .standard (registry true) adminContext).outcome = .ok .granted := rfl
  refine ⟨hh, hr, hs, hagree, hinstance, hunfiltered .null rfl, ?_⟩
  rw [← (hinstance agentValue).run]
  exact hallowed

end Rulebook

end AccessControl
