import AccessControl.Proofs.Http.Authentication

/-!
# Targets are hidden

A route about users that is guarded asks first whether the caller's role is granted the action at
all.  A caller who holds no level for it is refused there, and learns nothing about the directory:
not which ids exist, nor whether a body would have been accepted.

## Two runs

What is compared are two runs, from directories that agree on the record of the caller and on
nothing else.  Both of them are computed.  Finding the caller looks at that record only
(`Caller.run_resolve_of_stored`), what the guard does is the same from any directory
(`Access.exists_run_permitted`), and where the guard fails the route does nothing else
(`Endpoint.gated_permitted`).  So both runs come to the same exchange, `targets_hidden`: not just
the same status and the same body, but the same headers, the same records and the same lines in the
log.
-/

namespace AccessControl.Http

open Handler

variable {d : Directory} {a : Access} {context : Value} {action : UserAction} {settings : Settings}
  {r : Request} {e : Endpoint} {s : Server}

/-! ## 1. Finding the caller -/

/-- A copy of a user has the same context. -/
theorem exists_copy_of_toContext {u : User} (hcontext : u.toContext = .ok context) :
    ∃ copy, Directory.copy u = .ok copy ∧ copy.toContext = .ok context := by
  rw [User.toContext] at hcontext
  rw [Directory.copy, User.copied]
  cases hitems : u.assignedUsers.items? with
  | none =>
    rw [hitems] at hcontext
    cases hcontext
  | some items =>
    rw [hitems] at hcontext
    exact ⟨_, rfl, hcontext⟩

/-- Who is calling is found by the record under the id that is forwarded. -/
theorem Caller.run_resolve_of_stored {id : String} {u : User} (hid : id ≠ "")
    (hheader : r.header? (Text.small settings.identityHeader) = some id)
    (hu : d.stored? (.text id) = some u) (hcontext : u.toContext = .ok context) :
    (Caller.resolve settings (some (.resolver .directory)) r).run d =
      ⟨d, [], .ok (.resolved context)⟩ := by
  obtain ⟨copy, hcopy, hcontext⟩ := exists_copy_of_toContext hcontext
  have hempty : ¬ id.isEmpty = true := by simpa using hid
  have hget : d.get (.text id) = .ok (some copy) := by
    have htruthy : (!(Value.text id).truthy) = false := by simpa [Value.truthy] using hid
    simp only [Directory.get, htruthy, hu, hcopy]
    rfl
  have hperform : d.perform (.get (.text id)) = (d, d.get (.text id)) := rfl
  rw [Caller.resolve, Caller.forwarded, hheader]
  simp only [Option.getD_some, if_neg hempty]
  rw [run_bind_of_ok (by rw [run_tryCall]), run_tryCall, hperform, hget]
  simp only [hcontext]
  rfl

namespace Server

/-- Once the caller has been found, the request is handled at its endpoint. -/
theorem run_dispatch_of_resolved {i : Interpretation} {caller : Caller}
    (hroute : Endpoint.route r = .ok e)
    (hresolve : (Caller.resolve s.settings (s.publishedRegistry.bind Registry.resolver) r).run d =
      ⟨d, [], .ok caller⟩) :
    (s.dispatch i r).run d =
      (e.handle s.publishedRegistry ⟨i, s.registry, caller⟩ r).run d := by
  rw [dispatch, run_bind_of_ok (congrArg Result.outcome hresolve), hresolve, hroute]
  rfl

end Server

/-! ## 2. The guard -/

/-- The action on users that a route asks for before anything else. -/
def Endpoint.guard? : Endpoint → Option UserAction
  | listUsers => some .list
  | createUser => some .create
  | readUser _ => some .read
  | changeUser _ => some .update
  | removeUser _ => some .delete
  | _ => none

/-- **A guarded route begins with its guard.** -/
theorem Endpoint.gated_permitted (published : Option Registry) (a : Access) (r : Request)
    (body : Option Value) (he : e.guard? = some action) :
    Gated (a.permitted action) (e.handleWith published a r body) := by
  cases e with
  | listUsers =>
    cases he
    exact gated_bind (gated_self _) _
  | createUser =>
    cases he
    exact gated_bind (gated_self _) _
  | readUser userId =>
    cases he
    exact gated_bind (gated_self _) _
  | changeUser userId =>
    cases he
    exact gated_bind (gated_self _) _
  | removeUser userId =>
    cases he
    exact gated_bind (gated_self _) _
  | _ => cases he

/-- Where no level is held for an action, the permission for it is refused. -/
theorem refused_of_no_levels {i : Interpretation} {reg : Registry} {resource action : Value}
    (hsink : reg.SinkWorks i) (hc : reg.Accepts i context)
    (hlevels : reg.contextLevels context resource action = .ok []) :
    ∃ record, ((Query.permission resource action []).decide i reg context).outcome =
      .error (i.refuse reg.authzRefusal record) := by
  have hunheld : ∀ l ∈ ([] : List Value), l.IsText := by simp
  obtain ⟨f, hf, -, -, hverdict⟩ := answerPermission_of_held hlevels hunheld hunheld
  have hdenied : f.verdict = .deny := by
    cases hfound : f.verdict with
    | deny => rfl
    | allow => exact absurd rfl (hverdict.mp hfound).1
  exact ⟨_, refused_of_denied hsink hc hf hdenied rfl⟩

/-- **What the guard does** about a caller who holds no level is the same from any directory. -/
theorem Access.exists_run_permitted (ha : a.Harmless)
    (hsink : a.registry.SinkWorks a.interpretation) (hcaller : a.caller = .resolved context)
    (haccepts : a.registry.Accepts a.interpretation context)
    (hlevels : a.registry.contextLevels context Rulebook.userMember action.member = .ok []) :
    ∃ events record, ∀ d, (a.permitted action).run d =
      ⟨d, events, .error (.fault (a.interpretation.refuse a.registry.authzRefusal record))⟩ := by
  obtain ⟨record, hrefused⟩ := refused_of_no_levels hsink haccepts hlevels
  refine ⟨(screen a.interpretation a.registry context).1 ++
    ((Query.permission Rulebook.userMember action.member []).decide a.interpretation a.registry
      context).events, record, fun d => ?_⟩
  have hidentified : a.authenticated.run d =
      ⟨d, (screen a.interpretation a.registry context).1, .ok context⟩ := by
    rw [authenticated_of_resolved hcaller haccepts.bound,
      run_ofRun_of_harmless (harmless_of_mem_authenticate ha), authenticate_of_accepts haccepts]
    rfl
  have hasked : (a.decide context (.permission Rulebook.userMember action.member [])).run d =
      ⟨d, ((Query.permission Rulebook.userMember action.member []).decide a.interpretation
        a.registry context).events,
        .error (.fault (a.interpretation.refuse a.registry.authzRefusal record))⟩ := by
    rw [Access.decide, run_ofRun_of_harmless (harmless_of_mem_decide ha), hrefused]
    rfl
  rw [permitted, run_bind_of_ok (congrArg Result.outcome hidentified), hidentified,
    run_bind_of_error (congrArg Result.outcome hasked), hasked]

/-! ## 3. Two directories -/

/-- The request is made in the name of a user: it forwards an id, and the context of the record
under this id counts.  The user's role holds no level for the action that the endpoint asks for. -/
structure Request.Ungranted (r : Request) (s : Server) (e : Endpoint) (id : String) (u : User) :
    Prop where
  forwarded : r.header? (Text.small s.settings.identityHeader) = some id
  identified : id ≠ ""
  guarded : ∃ action context, e.guard? = some action ∧ u.toContext = .ok context ∧
    s.registry.Accepts .standard context ∧
    s.registry.contextLevels context Rulebook.userMember action.member = .ok []

namespace Server

variable {accounts : List Account} {id : String} {u : User}

/-- The server with another directory. -/
def withDirectory (s : Server) (d : Directory) : Server :=
  { s with directory := d }

/-- The dispatch of a request without the permission depends on the record of the caller only. -/
theorem Running.exists_run_dispatch (hs : s.Running settings accounts)
    (hr : r.Reaches settings e) (hu : r.Ungranted s e id u) :
    ∃ events record, ∀ d, d.stored? (.text id) = some u →
      ((s.withDirectory d).dispatch .standard r).run d =
        ⟨d, events, .error (.fault (.status (.unauthorized record)))⟩ := by
  obtain ⟨hforwarded, hid, action, context, he, hcontext, haccepts, hlevels⟩ := hu
  rw [hs.registry_eq] at haccepts hlevels
  rw [hs.settings_eq] at hforwarded
  obtain ⟨events, record, hguard⟩ := Access.exists_run_permitted
    (harmless_access settings.authzLogging (.resolved context))
    (sinkWorks_registry settings.authzLogging) rfl haccepts hlevels
  obtain ⟨body, hhandle⟩ := hr.exists_body s.publishedRegistry
    (access settings.authzLogging (.resolved context))
  refine ⟨events, record, fun d hstored => ?_⟩
  have hresolve : (Caller.resolve (s.withDirectory d).settings
      ((s.withDirectory d).publishedRegistry.bind Registry.resolver) r).run d =
        ⟨d, [], .ok (.resolved context)⟩ := by
    have hresolver : (s.withDirectory d).publishedRegistry.bind Registry.resolver =
        some (.resolver .directory) := by
      rw [publishedRegistry, withDirectory, hs.published_eq, hs.registry_eq]
      rfl
    rw [hresolver, withDirectory, hs.settings_eq]
    exact Caller.run_resolve_of_stored hid hforwarded hstored hcontext
  have haccess : (⟨.standard, (s.withDirectory d).registry, .resolved context⟩ : Access) =
      access settings.authzLogging (.resolved context) := by
    rw [withDirectory, hs.registry_eq]
    rfl
  rw [run_dispatch_of_resolved hr.route hresolve, haccess]
  have hgated := Endpoint.gated_permitted s.publishedRegistry
    (access settings.authzLogging (.resolved context)) r body he d _
    (congrArg Result.outcome (hguard d))
  rw [hguard d, ← hhandle] at hgated
  exact hgated

/-- **A request without the permission** comes to an exchange that does not depend on the directory:
only the record of the caller counts. -/
theorem Running.exists_exchange (hs : s.Running settings accounts) (hr : r.Reaches settings e)
    (hu : r.Ungranted s e id u) :
    ∃ exchange : Exchange, exchange.response.status = 403 ∧
      ∀ d, d.stored? (.text id) = some u →
        (s.withDirectory d).serve .standard r = (s.withDirectory d, exchange) := by
  obtain ⟨events, record, hdispatch⟩ := hs.exists_run_dispatch hr hu
  refine ⟨s.conclude r ⟨s.directory, events,
    s.answerTo r (.error (.fault (.status (.unauthorized record))))⟩, rfl, fun d hstored => ?_⟩
  have hadmits : (s.withDirectory d).Admits r :=
    ⟨by rw [withDirectory, hs.settings_eq]; exact hr.host, hr.request⟩
  have hrun : ((s.withDirectory d).dispatch .standard r).run (s.withDirectory d).directory = _ :=
    hdispatch d hstored
  rw [serve_eq_of_admits hadmits, hrun]
  rfl

end Server

/-- **Targets are hidden.**  Let a server be started, and let a request reach an endpoint that asks
for an action on users for which the caller's role holds no level.  Then it comes to the same
exchange over any two directories that agree on the record of the caller, whatever else is in them:
the same response with the status 403, the same records and the same lines in the log.  Neither
directory changes. -/
theorem targets_hidden {location : String} {contents : Option (List UInt8)}
    (hstart : (Server.start settings location contents).2 = .ok s) (hr : r.Reaches settings e)
    {id : String} {u : User} (hu : r.Ungranted s e id u) {d₁ d₂ : Directory}
    (h₁ : d₁.stored? (.text id) = some u) (h₂ : d₂.stored? (.text id) = some u) :
    ((s.withDirectory d₁).serve .standard r).2 = ((s.withDirectory d₂).serve .standard r).2 ∧
      ((s.withDirectory d₁).serve .standard r).2.response.status = 403 ∧
      ((s.withDirectory d₁).serve .standard r).1.directory = d₁ ∧
      ((s.withDirectory d₂).serve .standard r).1.directory = d₂ := by
  obtain ⟨accounts, hs⟩ := Server.exists_running_of_start hstart
  obtain ⟨exchange, hstatus, hserve⟩ := hs.exists_exchange hr hu
  rw [hserve d₁ h₁, hserve d₂ h₂]
  exact ⟨rfl, hstatus, rfl, rfl⟩

/-- An agent. -/
def agent : Account :=
  ⟨"g1", .text "", .agent, 3, .active, .text "", []⟩

/-- The manager of the agent. -/
def manager : Account :=
  ⟨"m1", .text "", .manager, 2, .active, .text "", ["g1"]⟩

/-- The agent wants to remove a manager. -/
def removing : Request := requestBy "g1" "DELETE" "/api/v1/users/m1" ""

/-- The case of an agent who wants to remove a manager: it makes no difference whether there is
one. -/
theorem targets_hidden_agent :
    ∃ s, (Server.start seededSettings "users.json" (some staffSeed)).2 = .ok s ∧
      removing.Reaches seededSettings (.removeUser "m1") ∧
      removing.Ungranted s (.removeUser "m1") "g1" agent.user ∧
      ((s.withDirectory ⟨[agent.user]⟩).serve .standard removing).2 =
        ((s.withDirectory ⟨[manager.user, agent.user]⟩).serve .standard removing).2 ∧
      ((s.withDirectory ⟨[agent.user]⟩).serve .standard removing).2.response.status = 403 ∧
      ((s.withDirectory ⟨[agent.user]⟩).serve .standard removing).1.directory = ⟨[agent.user]⟩ ∧
      ((s.withDirectory ⟨[manager.user, agent.user]⟩).serve .standard removing).1.directory =
        ⟨[manager.user, agent.user]⟩ := by
  have hstarted : (Server.start seededSettings "users.json" (some staffSeed)).2.toOption.any
      (fun _ => true) = true := by
    decide +kernel
  obtain ⟨s, hstart, -⟩ := exists_ok_of_any hstarted
  obtain ⟨accounts, hs⟩ := Server.exists_running_of_start hstart
  have hreaches : removing.Reaches seededSettings (.removeUser "m1") :=
    ⟨by decide +kernel, by decide +kernel, rfl, by decide, fun htakes => nomatch htakes⟩
  have hungranted : removing.Ungranted s (.removeUser "m1") "g1" agent.user := by
    refine ⟨?_, by decide, .delete, agent.context, rfl, rfl, ?_, ?_⟩
    · rw [hs.settings_eq]
      decide +kernel
    · rw [hs.registry_eq]
      exact Rulebook.accepts_context_iff.mpr rfl
    · rw [hs.registry_eq]
      rfl
  exact ⟨s, hstart, hreaches, hungranted, targets_hidden hstart hreaches hungranted rfl rfl⟩

end AccessControl.Http
