import AccessControl.Proofs.Decision.FirstDecisive
import AccessControl.Proofs.Http.AuditTrail
import AccessControl.Proofs.Registry.TextNames

/-!
# What a caller holds, and what the role is granted

There are two reports on what a caller may do.  One is about a role: it follows the index of the
registry and reads the grants.  The other is about the caller, and does not look at grants: it asks
the engine through which levels the caller holds each action of each resource, and shows the answers
that are not empty.  They agree, `summary_agrees`.

## Why they agree

The report on a role is exact, so it has a grant on a resource if and only if the rulebook of the
resource has one for the role, and this is the grant that the engine looks at.  Three more things
have to fit.

* An action of a grant is an action of the rulebook, so it is asked for.  This is the coherence of
  rulebooks.
* An action with an empty list of levels is as good as none: the engine denies it, and the summary
  leaves it out.
* Names are sorted, and for that they have to be texts.  No action is there twice, so none is
  asked for twice.

## What is needed of the context

A context counts if it has a role and the checks accept it.  The summary also shows the id of the
user, and a context without one is an error, after all questions have been answered.  So is a sink
that fails, since an answer without a record is not given: `summary_fails`.
-/

namespace AccessControl.Http

open Handler RegistryRoutes

variable {a : Access} {d : Directory}

/-! ## 1. Handlers that come to a result -/

namespace Handler

variable {α β κ ρ : Type}

/-- From whatever directory the handler is run, these events happen and it comes to this result. -/
def ComesTo (h : Handler α) (events : List Event) (result : α) : Prop :=
  ∀ d, h.run d = ⟨afterEvents d events, events, .ok result⟩

theorem comesTo_pure (b : α) : (Pure.pure b : Handler α).ComesTo [] b := fun _ => rfl

theorem comesTo_ofExcept {x : Except Failure α} {b : α} (h : x = .ok b) :
    (ofExcept x).ComesTo [] b := by
  rw [h]
  exact fun _ => rfl

theorem comesTo_ofRun {r : Run α} {events : List Event} {b : α} (h : r = ⟨events, .ok b⟩) :
    (ofRun r).ComesTo events b := by
  intro d
  rw [run_ofRun, h]
  rfl

theorem ComesTo.bind {h : Handler α} {f : α → Handler β} {events later : List Event} {b : α} {c : β}
    (hh : h.ComesTo events b) (hf : (f b).ComesTo later c) :
    (h >>= f).ComesTo (events ++ later) c := by
  intro d
  rw [run_bind_of_ok (by rw [hh d]), hh d, hf, afterEvents_append]

/-- A silent step is not seen among the events. -/
theorem ComesTo.silent_bind {h : Handler α} {f : α → Handler β} {later : List Event} {b : α} {c : β}
    (hh : h.ComesTo [] b) (hf : (f b).ComesTo later c) : (h >>= f).ComesTo later c :=
  hh.bind hf

/-- One silent handler after the other. -/
theorem comesTo_each_silent {f : α → Handler β} {g : α → β} {items : List α}
    (h : ∀ x ∈ items, (f x).ComesTo [] (g x)) : (each f items).ComesTo [] (items.map g) := by
  induction items with
  | nil => exact comesTo_pure []
  | cons x rest ih =>
    rw [List.forall_mem_cons] at h
    exact h.1.silent_bind ((ih h.2).silent_bind (comesTo_pure _))

/-- One handler after the other, each of which answers some questions and leaves one record for each
of these. -/
theorem comesTo_each_answering {f : α → Handler β} {g : α → β} {items : List α}
    (asked : α → List κ) (Leaves : κ → ρ → Prop) (events : ρ → List Event)
    (h : ∀ x ∈ items, ∃ records, List.Forall₂ Leaves (asked x) records ∧
      (f x).ComesTo (records.flatMap events) (g x)) :
    ∃ records, List.Forall₂ Leaves (items.flatMap asked) records ∧
      (each f items).ComesTo (records.flatMap events) (items.map g) := by
  induction items with
  | nil => exact ⟨[], .nil, comesTo_pure []⟩
  | cons x rest ih =>
    rw [List.forall_mem_cons] at h
    obtain ⟨first, hfirst, hx⟩ := h.1
    obtain ⟨others, hothers, hrest⟩ := ih h.2
    refine ⟨first ++ others, ?_, ?_⟩
    · rw [List.flatMap_cons]
      exact List.rel_append hfirst hothers
    · rw [each, List.flatMap_append, List.map_cons, ← List.append_nil (others.flatMap events)]
      exact hx.bind (hrest.bind (comesTo_pure _))

end Handler

/-! ## 2. What is shown -/

/-- Names with further names under each, as they are shown. -/
def tableShown (rows : List (String × List String)) : Value :=
  .map (rows.map fun row => (.text row.1, .list (row.2.map .text)))

/-- The summary as it is shown: for every resource the levels of actions, and for some resources the
relationships. -/
def summaryShown (userId role : String) (levels : List (String × List (String × List String)))
    (relationships : List (String × List String)) : Value :=
  .map [(.text "user_id", .text userId), (.text "role", .text role),
    (.text "access_levels", .map (levels.map fun row => (.text row.1, tableShown row.2))),
    (.text "relationships", tableShown relationships)]

/-- A name with others under it, in texts. -/
def spelledRow (e : Value × List Value) : String × List String :=
  (e.1.spelling, e.2.map Value.spelling)

theorem readName_of_isText {place : List Place} {v : Value} (h : v.IsText) :
    RoleReport.readName place v = .ok (.text v.spelling) := by
  rw [RoleReport.readName, h.text?_eq]

/-- Texts are shown. -/
theorem readNames_of_texts {place : List Place} {names : List Value} (h : ∀ v ∈ names, v.IsText) :
    RoleReport.readNames place names = .ok (.list ((names.map Value.spelling).map .text)) := by
  rw [RoleReport.readNames,
    Checked.each_of_ok (g := fun v => .text v.spelling) fun v hv n => readName_of_isText (h v hv),
    List.map_map]
  rfl

/-- Texts with texts under each are shown. -/
theorem readEntries_of_texts {place : List Place} {entries : List (Value × List Value)}
    (h : ∀ e ∈ entries, e.1.IsText ∧ ∀ v ∈ e.2, v.IsText) :
    RoleReport.readEntries place RoleReport.readNames entries =
      .ok (tableShown (entries.map spelledRow)) := by
  have hread : ∀ e ∈ entries, ∀ _n : Nat,
      Checked.also ((RoleReport.readName (place ++ [.ofKey e.1, .key "[key]"])
          e.1).map Prod.mk) (RoleReport.readNames (place ++ [.ofKey e.1]) e.2) =
        .ok (.text e.1.spelling, .list ((e.2.map Value.spelling).map .text)) := by
    intro e he _
    rw [readName_of_isText (h e he).1, readNames_of_texts (h e he).2]
    rfl
  simp only [RoleReport.readEntries]
  rw [Checked.each_of_ok hread, tableShown, List.map_map]
  rfl

/-- The summary of texts is shown. -/
theorem accessSummary_of_texts (userId role : String)
    {found : List (String × List (Value × List Value))} {held : List (Value × List Value)}
    (hfound : ∀ row ∈ found, ∀ e ∈ row.2, e.1.IsText ∧ ∀ v ∈ e.2, v.IsText)
    (hheld : ∀ e ∈ held, e.1.IsText ∧ ∀ v ∈ e.2, v.IsText) :
    accessSummary userId role found held =
      .ok (summaryShown userId role (found.map fun row => (row.1, row.2.map spelledRow))
        (held.map spelledRow)) := by
  have hactions : ∀ row ∈ found, actionsEntry row =
      .ok (.text row.1, tableShown (row.2.map spelledRow)) := by
    intro row hrow
    rw [actionsEntry, readEntries_of_texts (hfound row hrow)]
    rfl
  rw [accessSummary, readEntries_of_texts hheld, Checked.all_of_ok hactions, summaryShown,
    List.map_map]
  rfl

/-! ## 3. One question -/

/-- The levels that a role holds for an action of a resource; nothing if there are none. -/
def levelsEntry (r : Registry) (role resource : String) (action : Value) :
    Option (Value × List Value) :=
  if (r.levelsOn role resource action.name).isEmpty then none
  else some (action, r.levelsOn role resource action.name)

/-- The questions about a resource, one for each action if it is defined. -/
def questionsOn : String × Option Metadata → List (String × String)
  | (_, none) => []
  | (resource, some m) =>
    (Value.inOrder m.actions).map fun action => (resource, action.spelling)

/-- The actions of a resource that a role holds, in order and with their levels; nothing if the
resource is not defined. -/
def levelsRow (r : Registry) (role : String) :
    String × Option Metadata → Option (String × List (Value × List Value))
  | (_, none) => none
  | (resource, some m) =>
    some (resource, (Value.inOrder m.actions).filterMap (levelsEntry r role resource))

/-- The record is that of the question through which levels this action of this resource is
held. -/
structure LevelsRecorded (i : Interpretation) (r : Registry) (context : Value)
    (asked : String × String) (record : Audit) : Prop where
  made : (Query.levels (.text asked.1) (.text asked.2)).record? i r context = some record
  resource : record.resource = .text asked.1
  subject : ∃ found, record.subject = .levels (.text asked.2) found

/-- What happens when a question is asked whose record is this: the checks are called, and the
record is given to the sink. -/
def Access.asking (a : Access) (context : Value) (record : Audit) : List Event :=
  (screen a.interpretation a.registry context).1 ++
    recordEvents a.interpretation a.registry record

/-- The caller's context counts, its role is registered under this name, and it has the id of a
user. -/
structure Access.Identifies (a : Access) (context role userId : Value) (name : String) :
    Prop where
  caller : a.caller = .resolved context
  accepts : a.registry.Accepts a.interpretation context
  roleField : context.field? "role" = some role
  roleName : role.name.text? = some name
  registered : a.registry.hasRole name = true
  userIdField : context.field? "user_id" = some userId

/-- A question whose denial is an answer is answered once its record is taken. -/
theorem decide_of_unraised {i : Interpretation} {r : Registry} {context : Value} {q : Query}
    {f : Finding} (hc : r.Accepts i context)
    (hfind : q.find i r context ((contextRole? context).getD .null) = ⟨[], .ok f⟩)
    (hraises : q.raisesDenial = false) (hrecorded : Recorded i r (f.audit q.resource context)) :
    q.decide i r context =
      ⟨(screen i r context).1 ++ recordEvents i r (f.audit q.resource context), .ok f.answer⟩ := by
  have hconclude : f.conclude i r context q =
      ⟨recordEvents i r (f.audit q.resource context), .ok f.answer⟩ := by
    simp only [Finding.conclude, deliver_of_recorded hrecorded, hraises, Bool.false_and,
      Bool.false_eq_true, if_false]
    rw [Run.bind_of_ok rfl, Run.events_pure, Run.outcome_pure, List.append_nil]
  rw [decide_of_find hc hfind, hconclude, List.append_nil]

section Identified

variable {context role userId : Value} {name : String}

theorem Access.Identifies.contextRole? (h : a.Identifies context role userId name) :
    contextRole? context = some role.name := by
  have hcounts := h.accepts.hasRole
  rw [AccessControl.contextRole?, h.roleField] at hcounts ⊢
  simp only at hcounts ⊢
  split at hcounts
  · rename_i htruthy
    rw [if_pos htruthy]
  · cases hcounts

variable (h : a.Identifies context role userId name) (hr : a.registry.Reachable)
  (hnames : a.registry.NamesTexts) (hsink : a.registry.SinkWorks a.interpretation)

include h hr hnames hsink

/-- **One question.**  The levels that the caller holds for an action are those of the role's grant,
and asking for them leaves one record. -/
theorem comesTo_grantedLevels {resource : String} {m : Metadata}
    (hm : a.registry.metadata? resource = some m) {action : Value} (haction : action.IsText) :
    ∃ record, LevelsRecorded a.interpretation a.registry context (resource, action.spelling)
        record ∧
      (grantedLevels a context (.text resource) action).ComesTo (a.asking context record)
        (levelsEntry a.registry name resource action) := by
  have hname : action.name = .text action.spelling := Value.name_of_text? haction.text?_eq
  have hheld : a.registry.heldLevels ((contextRole? context).getD .null) (.text resource)
      action.name = .ok (a.registry.levelsOn name resource action.name) := by
    rw [h.contextRole?, Option.getD_some]
    exact Registry.heldLevels_eq hr.properlyNamed hm h.roleName rfl haction.name
  obtain ⟨f, hf, hfound⟩ := answerLevels_of_held hheld (Registry.isText_of_mem_levelsOn hr hnames)
  have hfind : ∀ asked : Value, asked.name = action.name →
      (Query.levels (.text resource) asked).find a.interpretation a.registry context
        ((contextRole? context).getD .null) = ⟨[], .ok f⟩ := by
    intro asked hasked
    rw [Query.find, hasked, Value.name_text, hf]
    rfl
  have hdecide := decide_of_unraised h.accepts (hfind action rfl) rfl (hsink _)
  refine ⟨f.audit (.text resource) context, ?_, ?_⟩
  · refine ⟨record?_of_find h.accepts (congrArg Run.outcome (hfind (.text _) hname.symm)), rfl, ?_⟩
    rcases hfound with ⟨-, -, hsubject, -⟩ | ⟨-, -, hsubject, -⟩
    · exact ⟨_, by rw [Finding.audit, hsubject, hname]⟩
    · exact ⟨_, by rw [Finding.audit, hsubject, hname]⟩
  · rw [grantedLevels, levelsEntry, ← List.append_nil (a.asking context _)]
    refine (comesTo_ofRun hdecide).bind ?_
    rcases hfound with ⟨hne, -, -, hanswer⟩ | ⟨hnil, -, -, hanswer⟩
    · rw [hanswer, if_neg (by simpa using hne)]
      exact comesTo_pure _
    · rw [hanswer, hnil]
      exact comesTo_pure _

omit h hr hnames hsink in
/-- Texts can be put in order. -/
theorem comesTo_ordered {names : List Value} (htexts : ∀ v ∈ names, v.IsText) :
    (ordered names).ComesTo [] (Value.inOrder names) := by
  refine comesTo_ofExcept ?_
  simp only [RoleReport.orderedNames, Value.sorted?_eq_inOrder htexts]
  rfl

/-- **One resource.** -/
theorem comesTo_grantedActions {e : String × Option Metadata} (he : e ∈ a.registry.resources) :
    ∃ records,
      List.Forall₂ (LevelsRecorded a.interpretation a.registry context) (questionsOn e) records ∧
      (grantedActions a context e).ComesTo (records.flatMap (a.asking context))
        (levelsRow a.registry name e) := by
  obtain ⟨resource, defined⟩ := e
  cases defined with
  | none => exact ⟨[], .nil, comesTo_pure none⟩
  | some m =>
    have hm : a.registry.metadata? resource = some m := by
      rw [Registry.metadata?, lookup_of_mem hr.nodup_resourceNames he]
      rfl
    have htexts := (hnames resource m hm).actions
    obtain ⟨records, hrecords, hruns⟩ := comesTo_each_answering
      (fun action : Value => [(resource, action.spelling)])
      (LevelsRecorded a.interpretation a.registry context) (a.asking context)
      (fun action haction => by
        have htext := htexts action ((Value.inOrder_perm htexts).mem_iff.mp haction)
        obtain ⟨record, hrecord, hruns⟩ := comesTo_grantedLevels h hr hnames hsink hm htext
        refine ⟨[record], .cons hrecord .nil, ?_⟩
        rw [List.flatMap_singleton]
        exact hruns)
    refine ⟨records, ?_, ?_⟩
    · rw [questionsOn, List.map_eq_flatMap]
      exact hrecords
    · rw [grantedActions, levelsRow, ← List.append_nil (records.flatMap _)]
      refine (comesTo_ordered htexts).silent_bind (hruns.bind ?_)
      rw [List.filterMap_map]
      exact comesTo_pure _

end Identified

theorem comesTo_consult {α : Type} {x : Except Fault α} {b : α} (h : x = .ok b) :
    (consult x).ComesTo [] b :=
  comesTo_ofExcept (by rw [h, mapError_ok])

theorem contextField_of_field? {context v : Value} {key : String}
    (h : context.field? key = some v) : Expr.contextField context key = .ok v := by
  rw [Expr.contextField, h]

/-- The relationships of the grants, each in order. -/
theorem comesTo_each_heldRelationships {r : Registry} (hr : r.Reachable) (hnames : r.NamesTexts)
    {role : String} {permissions : List (String × Grant)}
    (h : ∀ g ∈ permissions, r.grantOn role g.1 = some g.2) :
    (each heldRelationships permissions).ComesTo []
      (permissions.map fun g => (.text g.1, Value.inOrder g.2.relationships)) :=
  comesTo_each_silent fun g hg =>
    (comesTo_ordered (hr.grant_spec hnames (h g hg)).1.relationships).silent_bind (comesTo_pure _)

/-! ## 4. The agreement -/

/-- The summary agrees with the report on the role.  It has the resources that are defined, in the
order of their declaration.  Under each there are, in order, exactly the actions for which the
grant in the report lists some levels, with these levels in the order of the grant; so there are
none if the report has no grant on the resource.  The relationships are those of the grants in the
report, each in order. -/
structure SummaryAgrees (r : Registry) (info : RoleInfo)
    (levels : List (String × List (String × List String)))
    (relationships : List (String × List String)) : Prop where
  resources : levels.map Prod.fst = r.definedNames
  increasing : ∀ row ∈ levels, Increasing row.2
  listed : ∀ row ∈ levels, ∀ action names, (action, names) ∈ row.2 ↔
    names ≠ [] ∧ ∃ g, (row.1, g) ∈ info.permissions ∧ g.Lists action names
  granting : relationships.map Prod.fst = info.permissions.map Prod.fst
  held : ∀ row ∈ relationships, row.2.Pairwise (· < ·) ∧
    ∃ g, (row.1, g) ∈ info.permissions ∧ ∀ x, x ∈ row.2 ↔ ∃ v ∈ g.relationships, v.text? = some x

/-- The records are those of the questions for the levels of every action of every resource that is
defined, one record for each. -/
def RecordedOnce (i : Interpretation) (r : Registry) (context : Value) (records : List Audit) :
    Prop :=
  ∃ asked : List (String × String), asked.Nodup ∧
    (∀ resource action, (resource, action) ∈ asked ↔ r.DeclaresAction resource action) ∧
    List.Forall₂ (LevelsRecorded i r context) asked records

section Agreement

variable {r : Registry} (hr : r.Reachable) (hnames : r.NamesTexts)

include hr

theorem metadata?_of_mem {e : String × Option Metadata} {m : Metadata} (he : e ∈ r.resources)
    (hm : e.2 = some m) : r.metadata? e.1 = some m := by
  rw [Registry.metadata?, lookup_of_mem hr.nodup_resourceNames he, hm]
  rfl

include hnames

theorem mem_questionsOn_iff {e : String × Option Metadata} (he : e ∈ r.resources)
    {resource action : String} : (resource, action) ∈ questionsOn e ↔
      resource = e.1 ∧ ∃ m, e.2 = some m ∧ ∃ k ∈ m.actions, k.text? = some action := by
  obtain ⟨name, defined⟩ := e
  cases defined with
  | none => simp [questionsOn]
  | some m =>
    have htexts := (hnames name m (metadata?_of_mem hr he rfl)).actions
    rw [questionsOn, List.mem_map]
    constructor
    · rintro ⟨k, hk, heq⟩
      cases heq
      have hk' := (Value.inOrder_perm htexts).mem_iff.mp hk
      exact ⟨rfl, m, rfl, k, hk', (htexts k hk').text?_eq⟩
    · rintro ⟨rfl, m', hm', k, hk, haction⟩
      cases hm'
      refine ⟨k, (Value.inOrder_perm htexts).mem_iff.mpr hk, ?_⟩
      rw [Value.spelling_of_text? haction]

/-- **Every action of every defined resource is asked for, and none twice.** -/
theorem questions_spec : (r.resources.flatMap questionsOn).Nodup ∧
    ∀ resource action, (resource, action) ∈ r.resources.flatMap questionsOn ↔
      r.DeclaresAction resource action := by
  refine ⟨List.nodup_flatMap.mpr ⟨fun e he => ?_, ?_⟩, fun resource action => ?_⟩
  · obtain ⟨name, defined⟩ := e
    cases defined with
    | none => exact List.nodup_nil
    | some m =>
      have hm := metadata?_of_mem hr he rfl
      have hincreasing := Value.pairwise_inOrder (hnames name m hm).actions
        (hr.unrepeated hm).actions
      rw [questionsOn, List.Nodup, List.pairwise_map]
      refine (List.pairwise_map.mp hincreasing).imp fun {k l} hlt hsame => ?_
      rw [(Prod.mk.inj hsame).2] at hlt
      exact String.lt_irrefl _ hlt
  · refine (List.pairwise_map.mp hr.nodup_resourceNames).imp_of_mem fun {e e'} he he' hne => ?_
    rintro ⟨resource, action⟩ hmem hmem'
    have hfirst := ((mem_questionsOn_iff hr hnames he).mp hmem).1
    exact hne (hfirst.symm.trans ((mem_questionsOn_iff hr hnames he').mp hmem').1)
  · rw [List.mem_flatMap]
    constructor
    · rintro ⟨e, he, hmem⟩
      obtain ⟨rfl, m, hm, hk⟩ := (mem_questionsOn_iff hr hnames he).mp hmem
      exact ⟨m, metadata?_of_mem hr he hm, hk⟩
    · rintro ⟨m, hm, hk⟩
      have he : (resource, some m) ∈ r.resources :=
        mem_of_lookup (Option.join_eq_some_iff.mp hm)
      exact ⟨_, he, (mem_questionsOn_iff hr hnames he).mpr ⟨rfl, m, rfl, hk⟩⟩

/-- The levels that are shown under a resource are those of the role's grant. -/
theorem mem_levelsShown_iff {role resource : String} {m : Metadata}
    (hm : r.metadata? resource = some m) {action : String} {names : List String} :
    (action, names) ∈
        ((Value.inOrder m.actions).filterMap (levelsEntry r role resource)).map spelledRow ↔
      names ≠ [] ∧ ∃ g, r.grantOn role resource = some g ∧ g.Lists action names := by
  have htexts := (hnames resource m hm).actions
  have hspelled : ∀ k ∈ m.actions, k.name.text? = some k.spelling := by
    intro k hk
    rw [Value.name_of_text? (htexts k hk).text?_eq, Value.text?_text]
  constructor
  · intro hmem
    obtain ⟨entry, hentry, heq⟩ := List.mem_map.mp hmem
    obtain ⟨k, hk, hlevels⟩ := List.mem_filterMap.mp hentry
    have hk' := (Value.inOrder_perm htexts).mem_iff.mp hk
    rw [levelsEntry] at hlevels
    split at hlevels
    · cases hlevels
    · rename_i hne
      cases hlevels
      cases heq
      have hnonempty : (r.levelsOn role resource k.name).map Value.spelling ≠ [] := by
        simpa using hne
      exact ⟨hnonempty, (hr.levelsOn_iff hnames (hspelled k hk') hnonempty).mp rfl⟩
  · rintro ⟨hne, g, hg, hlists⟩
    -- the action of the grant is one of the rulebook, so it is among those that are asked for
    obtain ⟨k, hk, haction⟩ := hr.mem_actions_of_lists hm hg hlists
    have hk' : k.name.text? = some action := by
      rw [hspelled k hk, Value.spelling_of_text? haction]
    have hlevels := (hr.levelsOn_iff hnames hk' hne).mpr ⟨g, hg, hlists⟩
    refine List.mem_map.mpr ⟨(k, r.levelsOn role resource k.name), ?_, ?_⟩
    · refine List.mem_filterMap.mpr ⟨k, (Value.inOrder_perm htexts).mem_iff.mpr hk, ?_⟩
      have hnonempty : ¬ (r.levelsOn role resource k.name).isEmpty = true := by
        intro hempty
        rw [List.isEmpty_iff.mp hempty] at hlevels
        exact hne hlevels.symm
      rw [levelsEntry, if_neg hnonempty]
    · rw [spelledRow, hlevels, Value.spelling_of_text? haction]

/-- The actions that are shown under a resource increase. -/
theorem increasing_levelsShown {role resource : String} {m : Metadata}
    (hm : r.metadata? resource = some m) : Increasing
      (((Value.inOrder m.actions).filterMap (levelsEntry r role resource)).map spelledRow) := by
  have hincreasing := Value.pairwise_inOrder (hnames resource m hm).actions
    (hr.unrepeated hm).actions
  have hentry : ∀ {k : Value} {entry}, levelsEntry r role resource k = some entry →
      entry.1 = k := by
    intro k entry h
    rw [levelsEntry] at h
    split at h
    · cases h
    · cases h
      rfl
  rw [Increasing, List.pairwise_map]
  refine List.Pairwise.filterMap _ (fun k l hlt b hb c hc => ?_) (List.pairwise_map.mp hincreasing)
  rw [spelledRow, spelledRow, hentry hb, hentry hc]
  exact hlt

/-- The names that are shown under a resource, and the levels of each, are texts. -/
theorem isText_of_mem_levelsRow {role : String} {e : String × Option Metadata}
    (he : e ∈ r.resources) {row : String × List (Value × List Value)}
    (hrow : levelsRow r role e = some row) :
    ∀ p ∈ row.2, p.1.IsText ∧ ∀ l ∈ p.2, l.IsText := by
  obtain ⟨resource, defined⟩ := e
  cases defined with
  | none => cases hrow
  | some m =>
    cases hrow
    intro p hp
    obtain ⟨k, hk, hentry⟩ := List.mem_filterMap.mp hp
    have htexts := (hnames resource m (metadata?_of_mem hr he rfl)).actions
    rw [levelsEntry] at hentry
    split at hentry
    · cases hentry
    · cases hentry
      exact ⟨htexts k ((Value.inOrder_perm htexts).mem_iff.mp hk),
        Registry.isText_of_mem_levelsOn hr hnames⟩

/-- **What is shown agrees with the report.** -/
theorem summaryAgrees {role : String} {info : RoleInfo}
    (hinfo : ∀ resource g, (resource, g) ∈ info.permissions ↔ r.grantOn role resource = some g) :
    SummaryAgrees r info
      ((r.resources.filterMap (levelsRow r role)).map fun row => (row.1, row.2.map spelledRow))
      ((info.permissions.map fun g =>
        (Value.text g.1, Value.inOrder g.2.relationships)).map spelledRow) := by
  have hrows : ∀ row ∈ (r.resources.filterMap (levelsRow r role)).map
      (fun row => (row.1, row.2.map spelledRow)), ∃ m, r.metadata? row.1 = some m ∧
        row.2 =
          ((Value.inOrder m.actions).filterMap (levelsEntry r role row.1)).map spelledRow := by
    intro row hrow
    obtain ⟨found, hfound, rfl⟩ := List.mem_map.mp hrow
    obtain ⟨⟨resource, defined⟩, he, hlevels⟩ := List.mem_filterMap.mp hfound
    cases defined with
    | none => cases hlevels
    | some m =>
      cases hlevels
      exact ⟨m, metadata?_of_mem hr he rfl, rfl⟩
  exact {
    resources := by
      rw [List.map_map, List.map_filterMap, Registry.definedNames]
      refine List.filterMap_congr fun e _ => ?_
      obtain ⟨resource, defined⟩ := e
      cases defined with
      | none => rfl
      | some m => rfl
    increasing := fun row hrow => by
      obtain ⟨m, hm, hlevels⟩ := hrows row hrow
      rw [hlevels]
      exact increasing_levelsShown hr hnames hm
    listed := fun row hrow action names => by
      obtain ⟨m, hm, hlevels⟩ := hrows row hrow
      rw [hlevels, mem_levelsShown_iff hr hnames hm]
      simp only [hinfo]
    granting := by
      rw [List.map_map, List.map_map]
      rfl
    held := fun row hrow => by
      rw [List.map_map, List.mem_map] at hrow
      obtain ⟨⟨resource, g⟩, hg, rfl⟩ := hrow
      obtain ⟨hg', hunrepeated⟩ := hr.grant_spec hnames ((hinfo resource g).mp hg)
      exact ⟨Value.pairwise_inOrder hg'.relationships hunrepeated.relationships, g, hg, fun x =>
        Value.mem_map_spelling_inOrder_iff hg'.relationships⟩ }

end Agreement

/-- Asking questions leaves their records, and the checks of the caller leave none. -/
theorem recordsOf_asking (hkeeps : a.registry.Keeps a.interpretation) (context : Value)
    (records : List Audit) :
    recordsOf ((screen a.interpretation a.registry context).1 ++
      records.flatMap (a.asking context)) = records := by
  have hasking : ∀ record, recordsOf (a.asking context record) = [record] := by
    intro record
    rw [Access.asking, recordsOf_append, recordsOf_ofPredicate ofPredicate_of_mem_screen, hkeeps]
    rfl
  rw [recordsOf_append, recordsOf_ofPredicate ofPredicate_of_mem_screen, List.nil_append,
    recordsOf, List.filterMap_flatMap]
  exact (List.flatMap_congr fun record _ => hasking record).trans (List.flatMap_singleton' _)

/-- **The route.**  Once every question has been answered, the summary is what the levels that were
found and the grants of the report come to. -/
theorem comesTo_me {context role userId : Value} {name : String} {info : RoleInfo}
    (h : a.Identifies context role userId name) (hr : a.registry.Reachable)
    (hnames : a.registry.NamesTexts) (hinfo : a.registry.roleInfo role = .ok (some info))
    (hgrants : ∀ g ∈ info.permissions, a.registry.grantOn name g.1 = some g.2)
    {records : List Audit}
    (hlevels : (each (grantedActions a context) a.registry.resources).ComesTo
      (records.flatMap (a.asking context)) (a.registry.resources.map (levelsRow a.registry name))) :
    (me a).ComesTo ((screen a.interpretation a.registry context).1 ++
        records.flatMap (a.asking context))
      (Response.json 200 (summaryShown userId.plain role.plain
        ((a.registry.resources.filterMap (levelsRow a.registry name)).map
          fun row => (row.1, row.2.map spelledRow))
        ((info.permissions.map fun g =>
          (Value.text g.1, Value.inOrder g.2.relationships)).map spelledRow))) := by
  have hheld : ∀ e ∈ info.permissions.map fun g =>
      (Value.text g.1, Value.inOrder g.2.relationships), e.1.IsText ∧ ∀ v ∈ e.2, v.IsText := by
    intro e he
    obtain ⟨⟨resource, g⟩, hg, rfl⟩ := List.mem_map.mp he
    have htexts := (hr.grant_spec hnames (hgrants _ hg)).1.relationships
    exact ⟨Value.isText_text resource, fun v hv =>
      htexts v ((Value.inOrder_perm htexts).mem_iff.mp hv)⟩
  have hfound : ∀ row ∈ a.registry.resources.filterMap (levelsRow a.registry name),
      ∀ e ∈ row.2, e.1.IsText ∧ ∀ v ∈ e.2, v.IsText := by
    intro row hrow
    obtain ⟨e, he, hlevels⟩ := List.mem_filterMap.mp hrow
    exact isText_of_mem_levelsRow hr hnames he hlevels
  have hsummary := accessSummary_of_texts userId.plain role.plain hfound hheld
  rw [me, Access.authenticated_of_resolved h.caller h.accepts.bound]
  refine (comesTo_ofRun (authenticate_of_accepts h.accepts)).bind ?_
  rw [← List.append_nil (records.flatMap _)]
  refine hlevels.bind ?_
  refine (comesTo_consult (contextField_of_field? h.roleField)).silent_bind ?_
  refine (comesTo_consult hinfo).silent_bind ?_
  refine (comesTo_each_heldRelationships hr hnames hgrants).silent_bind ?_
  refine (comesTo_consult (contextField_of_field? h.userIdField)).silent_bind ?_
  rw [List.filterMap_map, Function.id_comp]
  exact (comesTo_ofExcept (by rw [hsummary]; rfl)).silent_bind (comesTo_pure _)

/-- **The summary of a caller agrees with the report on the caller's role.**  In any registry that
can be come by and whose names are texts, for a caller whose context counts, with a registered role
and the id of a user, and with a sink that does not fail if decisions are recorded:

* the route answers, from whatever directory;
* the summary in the response agrees with the report on the role (`SummaryAgrees`);
* one question is asked for each action of each resource that is defined, each of them leaves one
  record, and there are no other records. -/
theorem summary_agrees {context role userId : Value} {name : String}
    (h : a.Identifies context role userId name) (hr : a.registry.Reachable)
    (hnames : a.registry.NamesTexts) (hsink : a.registry.SinkWorks a.interpretation) :
    ∃ info levels relationships records,
      a.registry.roleInfo role = .ok (some info) ∧
      (me a).ComesTo ((screen a.interpretation a.registry context).1 ++
          records.flatMap (a.asking context))
        (Response.json 200 (summaryShown userId.plain role.plain levels relationships)) ∧
      SummaryAgrees a.registry info levels relationships ∧
      RecordedOnce a.interpretation a.registry context records ∧
      (a.registry.Keeps a.interpretation →
        recordsOf ((screen a.interpretation a.registry context).1 ++
          records.flatMap (a.asking context)) = records) := by
  obtain ⟨definition, hdefinition⟩ := Option.isSome_iff_exists.mp h.registered
  obtain ⟨permissions, hinfo, -, -, hpermissions⟩ :=
    hr.reportsExactly.registered role name definition h.roleName hdefinition
  have hgrants : ∀ resource g, (resource, g) ∈ permissions ↔
      a.registry.grantOn name resource = some g := by
    intro resource g
    rw [hpermissions, Registry.grantOn_eq_some_iff]
  obtain ⟨records, hrecords, hlevels⟩ := comesTo_each_answering questionsOn
    (LevelsRecorded a.interpretation a.registry context) (a.asking context)
    fun e he => comesTo_grantedActions h hr hnames hsink he
  exact ⟨_, _, _, records, hinfo,
    comesTo_me h hr hnames hinfo (fun g hg => (hgrants _ _).mp hg) hlevels,
    summaryAgrees hr hnames hgrants,
    ⟨_, (questions_spec hr hnames).1, (questions_spec hr hnames).2, hrecords⟩,
    fun hkeeps => recordsOf_asking hkeeps context records⟩

/-! ## 5. Where there is no summary -/

/-- The rulebook of the application names texts. -/
theorem namesTexts_of_metadata? {r : Registry}
    (h : ∀ resource m, r.metadata? resource = some m → m = Rulebook.metadata) : r.NamesTexts := by
  intro resource m hm
  rw [h resource m hm]
  exact {
    actions := fun k hk => by
      obtain ⟨action, -, rfl⟩ := List.mem_map.mp hk
      exact Value.isText_text action.name
    levels := fun l hl => by
      obtain ⟨p, hp, rfl⟩ := List.mem_map.mp hl
      obtain ⟨level, -, rfl⟩ := List.mem_map.mp hp
      exact Value.isText_text level.name
    relationships := fun x hx => by
      rw [List.mem_singleton.mp hx]
      exact Value.isText_text "OWNER" }

theorem namesTexts_registry (logging : Bool) : (Rulebook.registry logging).NamesTexts :=
  namesTexts_of_metadata? fun _ _ => Rulebook.eq_metadata_of_metadata?

/-- The case of a manager in the application.  The summary has the one resource there is; listing
users is shown with its one level, and creating them is not shown. -/
theorem summary_agrees_manager :
    (access true (.resolved managerContext)).Identifies managerContext (.text Role.manager.name)
      (.text "m1") Role.manager.name ∧
    (Rulebook.registry true).Reachable ∧ (Rulebook.registry true).NamesTexts ∧
    (Rulebook.registry true).SinkWorks .standard ∧
    ∃ levels relationships records,
      (me (access true (.resolved managerContext))).ComesTo
        ((screen .standard (Rulebook.registry true) managerContext).1 ++
          records.flatMap ((access true (.resolved managerContext)).asking managerContext))
        (Response.json 200 (summaryShown "m1" "MANAGER" levels relationships)) ∧
      levels.map Prod.fst = ["User"] ∧
      (∀ row ∈ levels, ("LIST", ["ASSIGNED"]) ∈ row.2 ∧ ∀ names, ("CREATE", names) ∉ row.2) ∧
      recordsOf ((screen .standard (Rulebook.registry true) managerContext).1 ++
        records.flatMap ((access true (.resolved managerContext)).asking managerContext)) =
          records := by
  have hc : (Rulebook.registry true).Accepts .standard managerContext := screen_eq_none_iff.mp rfl
  have hidentifies : (access true (.resolved managerContext)).Identifies managerContext
      (.text Role.manager.name) (.text "m1") Role.manager.name := ⟨rfl, hc, rfl, rfl, rfl, rfl⟩
  have hr := Rulebook.reachable_registry true
  have hnames := namesTexts_registry true
  have hsink := sinkWorks_registry true
  obtain ⟨info, levels, relationships, records, hinfo, hruns, hagrees, -, hkept⟩ :=
    summary_agrees hidentifies hr hnames hsink
  have hresources : levels.map Prod.fst = ["User"] := hagrees.resources
  refine ⟨hidentifies, hr, hnames, hsink, levels, relationships, records, hruns, hresources,
    fun row hrow => ?_, hkept Rulebook.keeps_registry⟩
  have hname : row.1 = "User" := by
    have hmem := List.mem_map_of_mem (f := Prod.fst) hrow
    rw [hresources] at hmem
    exact List.mem_singleton.mp hmem
  have hgrant : ∀ g, (row.1, g) ∈ info.permissions ↔ g = Rulebook.grantOf .manager := by
    intro g
    obtain ⟨permissions, hreport, -, -, hpermissions⟩ := hr.reportsExactly.registered
      (.text Role.manager.name) Role.manager.name Role.manager.definition rfl rfl
    rw [Option.some.inj (Except.ok.inj (hinfo.symm.trans hreport)), hname, hpermissions,
      ← Registry.grantOn_eq_some_iff]
    exact ⟨fun h => (Option.some.inj h).symm, fun h => h ▸ rfl⟩
  refine ⟨(hagrees.listed row hrow _ _).mpr ⟨List.cons_ne_nil _ _, _, (hgrant _).mpr rfl,
    .text "LIST", [.text "ASSIGNED"], .tail _ (.head _), rfl, rfl⟩, fun names hcreate => ?_⟩
  obtain ⟨-, g, hg, k, found, hmem, hk, -⟩ := (hagrees.listed row hrow _ _).mp hcreate
  rw [(hgrant g).mp hg] at hmem
  have hactions : ∀ p ∈ (Rulebook.grantOf .manager).permissions, p.1.text? ≠ some "CREATE" := by
    decide
  exact hactions _ hmem hk

/-- A context with a role that the checks accept, and without the id of a user. -/
def anonymousContext : Value :=
  .record .loose [("role", .text Role.admin.name), ("is_active", .bool true)]

/-- The registry of the application with a sink that fails. -/
def offlineRegistry : Registry :=
  { Rulebook.registry true with sink := .sink .offline }

/-- A summary has the id of a user. -/
theorem exists_userId_of_answered {context : Value} {response : Response}
    (hcaller : a.caller = .resolved context) (h : ((me a).run d).outcome = .ok response) :
    ∃ userId, context.field? "user_id" = some userId := by
  rw [me] at h
  obtain ⟨given, hgiven, h⟩ := exists_of_bind_ok h
  obtain ⟨hresolved, -⟩ := Access.authenticated_ok hgiven
  rw [hcaller] at hresolved
  cases hresolved
  obtain ⟨found, -, h⟩ := exists_of_bind_ok h
  obtain ⟨role, -, h⟩ := exists_of_bind_ok h
  obtain ⟨info, -, h⟩ := exists_of_bind_ok h
  obtain ⟨relationships, -, h⟩ := exists_of_bind_ok h
  obtain ⟨userId, huserId, -⟩ := exists_of_bind_ok h
  have hread : Expr.contextField context "user_id" = .ok userId := mapError_eq_ok_iff.mp huserId
  rw [Expr.contextField] at hread
  cases hfield : context.field? "user_id" with
  | some v => exact ⟨v, rfl⟩
  | none =>
    rw [hfield] at hread
    cases hread

/-- That the context counts and has a registered role is not enough for a summary.  Without the id
of a user there is none, and with a sink that fails there is none either. -/
theorem summary_fails :
    ((Rulebook.registry true).Reachable ∧ (Rulebook.registry true).NamesTexts ∧
      (Rulebook.registry true).SinkWorks .standard ∧
      (Rulebook.registry true).Accepts .standard anonymousContext ∧
      contextRole? anonymousContext = some (.text Role.admin.name) ∧
      (Rulebook.registry true).hasRole Role.admin.name = true ∧
      ∀ response, ((me (access true (.resolved anonymousContext))).run ⟨[]⟩).outcome ≠
        .ok response) ∧
    (offlineRegistry.Reachable ∧ offlineRegistry.NamesTexts ∧
      offlineRegistry.Accepts .standard managerContext ∧
      contextRole? managerContext = some (.text Role.manager.name) ∧
      offlineRegistry.hasRole Role.manager.name = true ∧
      ((me ⟨.standard, offlineRegistry, .resolved managerContext⟩).run ⟨[]⟩).outcome =
        .error (.fault (.raised "RuntimeError" (.text "sink offline")))) := by
  refine ⟨⟨Rulebook.reachable_registry true, namesTexts_registry true, sinkWorks_registry true,
    screen_eq_none_iff.mp rfl, rfl, rfl, fun response hanswered => ?_⟩, ?_, ?_,
    screen_eq_none_iff.mp rfl, rfl, rfl, ?_⟩
  · obtain ⟨userId, huserId⟩ := exists_userId_of_answered rfl hanswered
    cases huserId
  · exact .step (.setSink (.callable (.sink .offline))) (Rulebook.reachable_registry true)
  · refine namesTexts_of_metadata? fun resource m hm => ?_
    have hm' : (Rulebook.registry true).metadata? resource = some m := hm
    exact Rulebook.eq_metadata_of_metadata? hm'
  · rfl

end AccessControl.Http
