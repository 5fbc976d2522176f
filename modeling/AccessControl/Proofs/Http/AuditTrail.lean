import AccessControl.Proofs.Application.Records
import AccessControl.Proofs.Http.Authentication

/-!
# The trail of a request

A request puts several questions to the engine, and may end after any of them.  What is left for
an auditor is the list of the records, `recordsOf`, and it has to tell what has been done about the
request: whether it has been denied, and what has been changed and by whom.

## Denials

A request is denied exactly if its last record is a denial, and then the earlier ones are all
allowances: `Trail`.  For a question whose denial is raised this is so because the request ends
there.  There is one question whose denial is an answer, that for the levels; the list of users
puts it, but only after the list has been granted, and then there are levels
(`loud_levels_of_granted`).

Every endpoint about users is a routine that puts only questions whose denials do not go unnoticed,
so this part is an induction over routines, `Routine.trailed`.

## Changes

If the directory changes, the trail is known from the first record to the last: the action was
granted, the caller was allowed to apply it to this record, and for a new account to update each of
those that it manages, in their order (`Questions`, `Attest`).  This is read off the steps that
come before the call that writes.
-/

namespace AccessControl

/-- The trail that fits a status: a request that is denied leaves one denial, as its last record,
and any other request leaves none. -/
structure Trail (status : Nat) (records : List Audit) : Prop where
  denied : status = 401 ∨ status = 403 → ∃ granted denial, records = granted ++ [denial] ∧
    (∀ a ∈ granted, a.result = .allow) ∧ denial.result = .deny
  allowed : status ≠ 401 → status ≠ 403 → ∀ a ∈ records, a.result = .allow

/-- Allowances alone fit any other status. -/
theorem Trail.of_allowed {status : Nat} {records : List Audit}
    (hstatus : status ≠ 401 ∧ status ≠ 403) (h : ∀ a ∈ records, a.result = .allow) :
    Trail status records where
  denied := by
    rintro (h401 | h403)
    · exact absurd h401 hstatus.1
    · exact absurd h403 hstatus.2
  allowed := fun _ _ => h

/-- One denial fits the status of a request that is denied. -/
theorem Trail.of_denial {status : Nat} {denial : Audit} (hstatus : status = 401 ∨ status = 403)
    (h : denial.result = .deny) : Trail status [denial] where
  denied := fun _ => ⟨[], denial, rfl, by simp, h⟩
  allowed := by
    rcases hstatus with rfl | rfl
    · exact fun h401 => absurd rfl h401
    · exact fun _ h403 => absurd rfl h403

/-- Earlier allowances do not matter. -/
theorem Trail.append {status : Nat} {earlier records : List Audit}
    (hearlier : ∀ a ∈ earlier, a.result = .allow) (h : Trail status records) :
    Trail status (earlier ++ records) where
  denied := by
    intro hstatus
    obtain ⟨granted, denial, rfl, hgranted, hdenial⟩ := h.denied hstatus
    refine ⟨earlier ++ granted, denial, (List.append_assoc ..).symm, ?_, hdenial⟩
    rw [List.forall_mem_append]
    exact ⟨hearlier, hgranted⟩
  allowed := by
    intro h401 h403
    rw [List.forall_mem_append]
    exact ⟨hearlier, h.allowed h401 h403⟩

/-- A denial of the question does not go unnoticed: it is raised, or there is none. -/
def Query.Loud (q : Query) (i : Interpretation) (r : Registry) (context : Value) : Prop :=
  q.raisesDenial = true ∨
    ∀ f, (q.find i r context ((contextRole? context).getD .null)).outcome = .ok f →
      f.verdict = .allow

namespace Http

open Handler

variable {α β : Type} {a : Access} {d : Directory}

/-! ## 1. Trails of routines -/

namespace Handler

/-- The records fit the outcome: a result comes with allowances only, and a failure with the trail
for its status. -/
def Result.Trailed (result : Result α) : Prop :=
  match result.outcome with
  | .ok _ => ∀ a ∈ recordsOf result.events, a.result = .allow
  | .error f => Trail f.status (recordsOf result.events)

/-- The records fit the outcome, from whatever directory the handler is run. -/
def Trailed (h : Handler α) : Prop :=
  ∀ d, (h.run d).Trailed

/-- Events without records do not matter. -/
theorem Result.Trailed.emit {result : Result α} {events : List Event}
    (hevents : ∀ e ∈ events, e.audit? = none) (h : result.Trailed) :
    Result.Trailed { result with events := events ++ result.events } := by
  have hrecords : recordsOf (events ++ result.events) = recordsOf result.events := by
    rw [recordsOf_append, recordsOf_eq_nil hevents, List.nil_append]
  rw [Result.Trailed] at h ⊢
  simp only [hrecords]
  exact h

theorem trailed_bind {h : Handler α} {f : α → Handler β} (hh : h.Trailed)
    (hf : ∀ d b, (h.run d).outcome = .ok b → (f b).Trailed) : (h >>= f).Trailed := by
  intro d
  have hfirst := hh d
  rw [Result.Trailed] at hfirst
  cases houtcome : (h.run d).outcome with
  | error e =>
    rw [houtcome] at hfirst
    rw [run_bind_of_error houtcome]
    exact hfirst
  | ok b =>
    rw [houtcome] at hfirst
    have hlater := hf d b houtcome (h.run d).directory
    rw [Result.Trailed] at hlater
    rw [run_bind_of_ok houtcome, Result.Trailed]
    cases hlast : ((f b).run (h.run d).directory).outcome with
    | error e =>
      rw [hlast] at hlater
      simp only [recordsOf_append]
      exact hlater.append hfirst
    | ok c =>
      rw [hlast] at hlater
      simp only [recordsOf_append, List.forall_mem_append]
      exact ⟨hfirst, hlater⟩

/-- A run of the engine with allowances only. -/
theorem trailed_ofRun_of_ok {r : Run α} {b : α} (hok : r.outcome = .ok b)
    (h : ∀ a ∈ recordsOf r.events, a.result = .allow) : (ofRun r).Trailed := by
  intro d
  rw [run_ofRun, hok]
  exact h

/-- A run of the engine that fails with the trail for its status. -/
theorem trailed_ofRun_of_error {r : Run α} {e : Fault} (herror : r.outcome = .error e)
    (h : Trail (Failure.fault e).status (recordsOf r.events)) : (ofRun r).Trailed := by
  intro d
  rw [run_ofRun, herror]
  exact h

end Handler

/-- Every record is taken and kept, and the refusals turn requests away with the two statuses for
this. -/
structure Access.Recording (a : Access) : Prop where
  sink : a.registry.SinkWorks a.interpretation
  keeps : a.registry.Keeps a.interpretation
  authn : ∀ record,
    (Failure.fault (a.interpretation.refuse a.registry.authnRefusal record)).status = 401
  authz : ∀ record,
    (Failure.fault (a.interpretation.refuse a.registry.authzRefusal record)).status = 403

namespace Access

variable (h : a.Recording)

include h

/-- A request that is turned away leaves one denial. -/
theorem Recording.trailed_turnAway (message resource userId : Value) :
    (ofRun (AccessControl.turnAway a.interpretation a.registry message resource userId :
      Run α)).Trailed := by
  obtain ⟨record, -, hdenied, hrun⟩ := exists_turnAway (α := α) h.sink message resource userId
  rw [hrun]
  refine trailed_ofRun_of_error rfl ?_
  rw [recordsOf_append, h.keeps]
  exact .of_denial (Or.inl (h.authn record)) hdenied

/-- **The gate** leaves one denial, or nothing. -/
theorem Recording.trailed_authenticated : a.authenticated.Trailed := by
  rw [authenticated]
  split
  · exact h.trailed_turnAway _ _ _
  · rename_i context _
    split
    · exact h.trailed_turnAway _ _ _
    · have hscreened : recordsOf (screen a.interpretation a.registry context).1 = [] :=
        recordsOf_ofPredicate ofPredicate_of_mem_screen
      by_cases haccepts : a.registry.Accepts a.interpretation context
      · rw [authenticate_of_accepts haccepts]
        refine trailed_ofRun_of_ok rfl ?_
        rw [hscreened]
        simp
      · obtain ⟨record, -, hdenied, hrun⟩ := exists_authenticate h.sink haccepts
        rw [hrun]
        refine trailed_ofRun_of_error rfl ?_
        rw [recordsOf_append, recordsOf_append, hscreened, h.keeps]
        exact .of_denial (Or.inl (h.authn record)) hdenied

/-- **A question** leaves one record, and it is a denial exactly if the request is denied. -/
theorem Recording.trailed_decide {context : Value} {q : Query}
    (hq : q.Loud a.interpretation a.registry context) : (a.decide context q).Trailed := by
  obtain ⟨asked, hasked, hcourse⟩ := exists_course q a.interpretation a.registry context
  have hnone : recordsOf asked = [] := recordsOf_ofPredicate hasked
  rw [Access.decide]
  generalize hrun : q.decide a.interpretation a.registry context = run at hcourse
  cases hcourse with
  | unanswered e _ _ hfind =>
    refine trailed_ofRun_of_error rfl ?_
    rw [hnone]
    exact .of_allowed (Failure.ordinary_of_technical (technical_find _ _ _ _ _ e hfind)) (by simp)
  | recorded record answer ending hrecord hending =>
    cases hending with
    | sinkFailed e hlog hfailed =>
      rw [h.sink _ hlog] at hfailed
      cases hfailed
    | unauthenticated _ hcontext =>
      refine trailed_ofRun_of_error rfl ?_
      rw [recordsOf_append, recordsOf_append, hnone, h.keeps]
      exact .of_denial (Or.inl (h.authn record)) (result_of_record? hrecord hcontext)
    | unauthorized _ _ hdenied =>
      refine trailed_ofRun_of_error rfl ?_
      rw [recordsOf_append, recordsOf_append, hnone, h.keeps]
      exact .of_denial (Or.inr (h.authz record)) hdenied
    | answered _ hcontext hallowed =>
      refine trailed_ofRun_of_ok rfl ?_
      rw [recordsOf_append, hnone, h.keeps, List.nil_append, List.forall_mem_singleton]
      rcases hallowed with hallow | hquiet
      · exact hallow
      · obtain ⟨f, hf, -⟩ := exists_find_of_decide (congrArg Run.outcome hrun)
        rw [record?_of_find hcontext hf] at hrecord
        cases hrecord
        rcases hq with hraised | hallow
        · rw [hraised] at hquiet
          cases hquiet
        · exact hallow f hf

end Access

/-- **The trail of a routine** whose questions do not go unnoticed fits its outcome. -/
theorem Routine.trailed {Q : α → Prop} {h : Handler α} (ha : a.Recording)
    (hh : Routine a (fun context q => q.Loud a.interpretation a.registry context) Q h) :
    h.Trailed := by
  induction hh with
  | result b hb => exact fun _ => by simp [Result.Trailed, recordsOf]
  | failure f hf => exact fun _ => .of_allowed hf (by simp [recordsOf])
  | emit events next hevents _ ih => exact fun d => (ih (afterEvents d events)).emit hevents
  | call c next _ ih => exact fun d => ih _ _
  | identify next _ ih =>
    exact trailed_bind ha.trailed_authenticated fun d context hcontext =>
      ih context (Access.authenticated_ok hcontext).1
  | question context q next hcaller hq _ ih =>
    exact trailed_bind (ha.trailed_decide hq) fun d answer hanswer =>
      ih answer (ok_of_ofRun hanswer)

/-! ## 2. The question that is not raised -/

/-- **Levels are there once the action is granted**, so the question for them is not denied. -/
theorem loud_levels_of_granted (hnames : a.registry.ListsTexts)
    (hsink : a.registry.SinkWorks a.interpretation) {context : Value} {action : UserAction}
    (h : a.Granted context action) :
    (Query.levels Rulebook.userMember action.member).Loud a.interpretation a.registry context := by
  obtain ⟨answer, hanswer⟩ := h
  refine Or.inr fun f hf => ?_
  obtain ⟨granted, hgranted, -, hallow | hquiet⟩ :=
    (decide_ok_iff hsink (accepts_of_decide_ok hanswer)).mp hanswer
  · obtain ⟨held, hheld⟩ := held_of_lookUp ((answerPermission_eq ..).symm.trans hgranted)
    have htexts := isText_of_heldLevels hnames hheld
    have hunfiltered : ∀ l ∈ ([] : List Value), l.IsText := by simp
    obtain ⟨granted', hgranted', -, -, hverdict⟩ :=
      answerPermission_of_held hheld htexts hunfiltered
    rw [show granted = granted' from Except.ok.inj (hgranted.symm.trans hgranted')] at hallow
    obtain ⟨f', hf', ⟨-, hfound, -⟩ | ⟨hnil, -⟩⟩ := answerLevels_of_held hheld htexts
    · rw [show f = f' from Except.ok.inj (hf.symm.trans hf')]
      exact hfound
    · exact absurd hnil (hverdict.mp hallow).1
  · cases hquiet

/-- The routes about users. -/
def Endpoint.aboutUsers : Endpoint → Bool
  | ownRecord | listUsers | createUser | readUser _ | changeUser _ | removeUser _ => true
  | _ => false

/-- With recording on, the application takes and keeps every record. -/
theorem recording_access (caller : Caller) : (access true caller).Recording where
  sink := sinkWorks_registry true
  keeps := Rulebook.keeps_registry
  authn := fun _ => rfl
  authz := fun _ => rfl

/-- **Every endpoint about users** leaves the trail for its outcome. -/
theorem Endpoint.trailed_handle {e : Endpoint} (he : e.aboutUsers = true) (caller : Caller)
    (published : Option Registry) (r : Request) :
    (e.handle published (access true caller) r).Trailed := by
  refine Routine.trailed (recording_access caller) (Endpoint.routine_handle fun body => ?_)
  refine Endpoint.routine_handleWith (fun _ _ hraised => Or.inl hraised)
    (fun context hgranted => ?_) ?_ published r body
  · exact loud_levels_of_granted (Rulebook.listsTexts_registry true) (sinkWorks_registry true)
      hgranted
  · rintro rfl
    cases he

/-! ## 3. What a change leaves -/

variable {c : Account} {accounts accounts' : List Account}

/-- What is asked in the name of the caller before the accounts change: whether the action is
granted, whether it may be applied to the account that changes, and for an account that is added
whether those that it manages may be updated, one after the other. -/
inductive Questions (c : Account) (accounts accounts' : List Account) : List Subject → Prop
  | creation (u : Account) (h : Creation c accounts accounts' u) :
      Questions c accounts accounts'
        (UserAction.create.asked :: UserAction.create.askedOf u.userId ::
          u.assigned.map UserAction.update.askedOf)
  | revision (t t' : Account) (h : Revision c accounts accounts' t t') :
      Questions c accounts accounts' [UserAction.update.asked, UserAction.update.askedOf t.userId]
  | deletion (t : Account) (h : Deletion c accounts accounts' t) :
      Questions c accounts accounts' [UserAction.delete.asked, UserAction.delete.askedOf t.userId]

/-- The access of an account, with recording on. -/
def accessOf (c : Account) : Access :=
  access true (.resolved c.context)

theorem harmless_accessOf (c : Account) : (accessOf c).Harmless :=
  harmless_access true _

/-- Who is permitted an action leaves one record. -/
theorem attest_permitted (hid : c.userId ≠ "") {action : UserAction} {context : Value}
    (h : (((accessOf c).permitted action).run d).outcome = .ok context) :
    Attest c [action.asked] (recordsOf (((accessOf c).permitted action).run d).events) := by
  obtain ⟨given, hgiven, hasked⟩ :=
    (Access.quiet_authenticated (harmless_accessOf c)).exists_of_ok h
  obtain ⟨hcaller, haccepts⟩ := Access.authenticated_ok hgiven
  cases hcaller
  obtain ⟨answer, hanswer, -⟩ :=
    (Access.quiet_decide (harmless_accessOf c) _ _).exists_of_ok hasked
  have hscreened : recordsOf (screen .standard (Rulebook.registry true) c.context).1 = [] :=
    recordsOf_ofPredicate ofPredicate_of_mem_screen
  have hrun := Access.run_permitted (a := accessOf c) d rfl haccepts (ok_of_ofRun hanswer)
  rw [hrun, authenticate_of_accepts haccepts, recordsOf_append]
  exact hscreened ▸ (attest_nil c).append (attest_permission hid (ok_of_ofRun hanswer))

/-- Who may apply an action to an account leaves one record. -/
theorem attest_may (hid : c.userId ≠ "") {action : UserAction} {t : Account}
    (h : (((accessOf c).may c.context action t.user).run d).outcome = .ok ()) :
    Attest c [action.askedOf t.userId]
      (recordsOf (((accessOf c).may c.context action t.user).run d).events) := by
  obtain ⟨answer, hanswer, hrun⟩ :=
    (Access.quiet_decide (harmless_accessOf c) _ _).run_of_ok h
  rw [Access.may, hrun, recordsOf_append, Access.decide, run_ofRun]
  exact (attest_instanceOf hid (ok_of_ofRun hanswer)).append (attest_nil c)

/-- The loop over those to be assigned leaves one record for each of them. -/
theorem attest_checkAssigned (hd : d.Holds accounts) (hid : c.userId ≠ "") {ids : List String}
    (h : ((UserRoutes.checkAssigned (accessOf c) c.context ids).run d).outcome = .ok ()) :
    Attest c (ids.map UserAction.update.askedOf)
      (recordsOf ((UserRoutes.checkAssigned (accessOf c) c.context ids).run d).events) := by
  induction ids with
  | nil => exact attest_nil c
  | cons userId rest ih =>
    rw [UserRoutes.checkAssigned] at h ⊢
    obtain ⟨found, hfound, hrun⟩ := (quiet_ask (c := .get (.text userId)) rfl).run_of_ok h
    rw [hrun] at h ⊢
    have hget : d.get (.text userId) = .ok found := mapError_eq_ok_iff.mp hfound
    cases found with
    | none => cases h
    | some u =>
      obtain ⟨t, -, rfl, rfl⟩ := Directory.exists_of_get hd hget
      obtain ⟨⟨⟩, hmay, hrun⟩ := (Access.quiet_may (harmless_accessOf c) _ _ _).run_of_ok h
      simp only [hrun] at h ⊢
      rw [recordsOf_append, recordsOf_append]
      exact (attest_nil c).append ((attest_may hid hmay).append (ih h))

/-- **A change at an endpoint** is one of the three, and the records attest it. -/
theorem Endpoint.attest_of_changed (hd : d.Holds accounts) (hactive : c.status = .active)
    (hid : c.userId ≠ "") {published : Option Registry} {r : Request} {body : Option Value}
    {e : Endpoint}
    (hchanged : ((e.handleWith published (accessOf c) r body).run d).directory ≠ d) :
    ∃ accounts' subjects,
      ((e.handleWith published (accessOf c) r body).run d).directory.Holds accounts' ∧
      Questions c accounts accounts' subjects ∧
      Attest c subjects
        (recordsOf ((e.handleWith published (accessOf c) r body).run d).events) := by
  have ha := harmless_accessOf c
  cases hwrites : e.writes with
  | false => exact absurd (Endpoint.quiet_handleWith ha published r body hwrites d) hchanged
  | true =>
    cases e with
    | createUser =>
      obtain ⟨context, new, hpermitted, -, hmay, hassigned, hadd, hevents⟩ :=
        UserRoutes.steps_of_create ha hchanged
      cases (Access.permitted_ok ha hpermitted).1
      obtain ⟨hholds, hcreation⟩ := creation_of_add hd hactive (Access.may_ok ha hmay)
        (UserRoutes.allowed_of_checkAssigned ha hassigned) hadd
      refine ⟨_, _, hholds, .creation _ hcreation, ?_⟩
      rw [Endpoint.handleWith, hevents, recordsOf_append, recordsOf_append]
      exact (attest_permitted hid hpermitted).append
        ((attest_may (t := new.account) hid hmay).append (attest_checkAssigned hd hid hassigned))
    | changeUser userId =>
      obtain ⟨context, changes, u, hpermitted, -, hu, hmay, hupdate, hevents⟩ :=
        UserRoutes.steps_of_change ha hchanged
      cases (Access.permitted_ok ha hpermitted).1
      obtain ⟨t, ht, rfl, rfl, hallowed⟩ := may_of_get hd hactive hu (Access.may_ok ha hmay)
      rw [Endpoint.handleWith, hupdate] at hchanged
      obtain ⟨accounts', hholds, hrevision⟩ := revision_of_update hd ht hallowed hchanged
      refine ⟨accounts', _, ?_, .revision t _ hrevision, ?_⟩
      · rw [Endpoint.handleWith, hupdate]
        exact hholds
      · rw [Endpoint.handleWith, hevents, recordsOf_append]
        exact (attest_permitted hid hpermitted).append (attest_may hid hmay)
    | removeUser userId =>
      obtain ⟨context, u, hpermitted, hu, hmay, hremove, hevents⟩ :=
        UserRoutes.steps_of_remove ha hchanged
      cases (Access.permitted_ok ha hpermitted).1
      obtain ⟨t, ht, rfl, rfl, hallowed⟩ := may_of_get hd hactive hu (Access.may_ok ha hmay)
      obtain ⟨accounts', hholds, hdeletion⟩ := deletion_of_remove hd ht hallowed
      refine ⟨accounts', _, ?_, .deletion t hdeletion, ?_⟩
      · rw [Endpoint.handleWith, hremove]
        exact hholds
      · rw [Endpoint.handleWith, hevents, recordsOf_append]
        exact (attest_permitted hid hpermitted).append (attest_may hid hmay)
    | _ => cases hwrites

/-! ## 4. Every request -/

/-- The trail of a handler fits the status of the response, if its results are not denials. -/
theorem Handler.Result.Trailed.trail {result : Result Response} (h : result.Trailed)
    (hok : ∀ response, result.outcome = .ok response → response.Succeeded) :
    Trail (statusOf result.outcome) (recordsOf result.events) := by
  rw [Result.Trailed] at h
  cases houtcome : result.outcome with
  | error f =>
    rw [houtcome] at h
    exact h
  | ok response =>
    rw [houtcome] at h
    have hstatus : response.status < 400 := hok response houtcome
    have hordinary : response.status ≠ 401 ∧ response.status ≠ 403 := by omega
    exact .of_allowed hordinary h

namespace Server

variable {s : Server} {settings : Settings} {r : Request}

/-- **The trail of a request** about users fits the status of its response. -/
theorem Running.trail (hs : s.Running settings accounts) (hlogging : settings.authzLogging = true)
    {e : Endpoint} (hroute : Endpoint.route r = .ok e) (he : e.aboutUsers = true) :
    Trail (s.serve .standard r).2.response.status (recordsOf (s.serve .standard r).2.events) := by
  by_cases hadmits : s.Admits r
  · obtain ⟨result, line, hresult, hline, -, hstatus, hevents⟩ := hs.serve_of_route hadmits hroute
    rw [hlogging] at hresult
    have htrailed : result.Trailed := by
      rw [hresult]
      exact Endpoint.trailed_handle he _ _ r s.directory
    have hok : ∀ response, result.outcome = .ok response → response.Succeeded := by
      rw [hresult]
      exact fun response hresponse => Endpoint.succeeded_of_ok hresponse
    rw [hstatus, hevents, recordsOf_append, recordsOf_line hline, List.append_nil]
    exact htrailed.trail hok
  · obtain ⟨-, hstatus, line, hline, hevents⟩ := serve_of_not_admits hadmits .standard
    rw [hevents, recordsOf_line hline]
    refine .of_allowed ?_ (by simp)
    rcases hstatus with hstatus | hstatus
    · rw [hstatus]
      decide
    · rw [hstatus]
      decide

/-- **A request that changes the accounts** leaves the records that attest the change. -/
theorem Running.attested (hs : s.Running settings accounts)
    (hlogging : settings.authzLogging = true)
    (hchanged : (s.serve .standard r).1.directory ≠ s.directory) :
    ∃ accounts' c subjects, (s.serve .standard r).1.directory.Holds accounts' ∧ c ∈ accounts ∧
      r.header? (Text.small settings.identityHeader) = some c.userId ∧
      Questions c accounts accounts' subjects ∧
      Attest c subjects (recordsOf (s.serve .standard r).2.events) := by
  obtain ⟨e, body, result, line, rfl, hline, hdirectory, -, hevents⟩ :=
    hs.exists_handled_of_changed hchanged
  rw [hdirectory, hlogging] at hchanged
  rw [hdirectory, hevents, recordsOf_append, recordsOf_line hline, List.append_nil, hlogging]
  obtain ⟨context, hcontext, haccepts, -⟩ := transition_of_handleWith (e := e) hs.holds hchanged
  cases hcaller : r.caller? settings accounts with
  | none =>
    rw [hcaller] at hcontext
    cases hcontext
    cases haccepts.bound
  | some c =>
    rw [hcaller] at hcontext hchanged
    cases hcontext
    obtain ⟨hc, hid, hheader⟩ := (Request.caller?_eq_some_iff hs.holds).mp hcaller
    obtain ⟨accounts', subjects, hholds, hquestions, hattest⟩ :=
      Endpoint.attest_of_changed hs.holds (Rulebook.accepts_context_iff.mp haccepts) hid hchanged
    exact ⟨accounts', c, subjects, hholds, hc, hheader, hquestions, hattest⟩

end Server

/-- **The trail is complete.**  Let a server be started with recording on, let it serve any
requests, and then one more that is about users.

* If the status of the response is 401 or 403, the last record is a denial, and the earlier ones
  are allowances.  With any other status all records are allowances.
* If the directory has changed, then by a transition in the name of an account whose id the request
  forwards; and the records are allowances that answer just the questions that this transition
  needs, in their order and in the name of this account. -/
theorem trail_complete {settings : Settings} {location : String} {contents : Option (List UInt8)}
    {s : Server} (hstart : (Server.start settings location contents).2 = .ok s)
    (hlogging : settings.authzLogging = true) (requests : List Request) (r : Request)
    {e : Endpoint} (hroute : Endpoint.route r = .ok e) (he : e.aboutUsers = true) :
    Trail ((s.serveAll .standard requests).serve .standard r).2.response.status
        (recordsOf ((s.serveAll .standard requests).serve .standard r).2.events) ∧
      (((s.serveAll .standard requests).serve .standard r).1.directory ≠
          (s.serveAll .standard requests).directory →
        ∃ accounts accounts' c subjects, (s.serveAll .standard requests).directory.Holds accounts ∧
          ((s.serveAll .standard requests).serve .standard r).1.directory.Holds accounts' ∧
          c ∈ accounts ∧ r.header? (Text.small settings.identityHeader) = some c.userId ∧
          Questions c accounts accounts' subjects ∧
          Attest c subjects
            (recordsOf ((s.serveAll .standard requests).serve .standard r).2.events)) := by
  obtain ⟨seeded, hseeded⟩ := Server.exists_running_of_start hstart
  obtain ⟨accounts, hrunning⟩ := hseeded.exists_serveAll requests
  refine ⟨hrunning.trail hlogging hroute he, fun hchanged => ?_⟩
  obtain ⟨accounts', c, subjects, hholds, hcaller⟩ := hrunning.attested hlogging hchanged
  exact ⟨accounts, accounts', c, subjects, hrunning.holds, hholds, hcaller⟩

/-- The case of the administrator who creates a manager for the agent: the directory changes, and
three records are left. -/
theorem trail_complete_hiring :
    seededSettings.authzLogging = true ∧ Endpoint.route hiring = .ok .createUser ∧
      ∃ s, (Server.start seededSettings "users.json" (some staffSeed)).2 = .ok s ∧
        (recordsOf (s.serve .standard hiring).2.events).length = 3 ∧
        Trail (s.serve .standard hiring).2.response.status
          (recordsOf (s.serve .standard hiring).2.events) ∧
        (s.serve .standard hiring).1.directory ≠ s.directory ∧
        ∃ accounts accounts' c subjects, s.directory.Holds accounts ∧
          (s.serve .standard hiring).1.directory.Holds accounts' ∧ c ∈ accounts ∧
          hiring.header? (Text.small seededSettings.identityHeader) = some c.userId ∧
          Questions c accounts accounts' subjects ∧
          Attest c subjects (recordsOf (s.serve .standard hiring).2.events) := by
  have hroute : Endpoint.route hiring = .ok .createUser := rfl
  have htested : (Server.start seededSettings "users.json" (some staffSeed)).2.toOption.any
      (fun s =>
        (recordsOf (s.serve .standard hiring).2.events).length == 3 &&
        s.directory.users.length == 2 &&
        (s.serve .standard hiring).1.directory.users.length == 3) = true := by
    decide +kernel
  obtain ⟨s, hstart, htested⟩ := exists_ok_of_any htested
  simp only [Bool.and_eq_true, beq_iff_eq] at htested
  obtain ⟨⟨hrecords, hbefore⟩, hafter⟩ := htested
  have hchanged : (s.serve .standard hiring).1.directory ≠ s.directory := by
    intro hsame
    rw [hsame, hbefore] at hafter
    exact absurd hafter (by decide)
  obtain ⟨htrail, hattested⟩ := trail_complete hstart rfl [] hiring hroute rfl
  exact ⟨rfl, hroute, s, hstart, hrecords, htrail, hchanged, hattested hchanged⟩

end Http

end AccessControl
