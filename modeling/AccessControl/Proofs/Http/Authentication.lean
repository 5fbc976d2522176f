import AccessControl.Proofs.Http.Endings
import AccessControl.Proofs.Http.Transition

/-!
# The gate

Every route but the probe begins in the same way: it asks for the context of the caller.  If there
is none, or if it does not count, the request is turned away with the status 401; otherwise the
route goes on.

## Why two arguments are needed

That a request without a valid caller is turned away is seen at the beginning of a route.  Where
the first step of a handler fails the handler does nothing else, so it is enough that every route
*begins* with the gate, whatever comes after: `Handler.Gated`, `gated_handleWith`.  This gives the
status, and it gives what has happened, since nothing has happened but what the gate does: one
record of a denial was made, and no level was asked.

That a request with a valid caller is never turned away with the same status cannot be seen at the
beginning.  The context is screened again for every question that a route asks later, and a later
failure might have the status 401 for other reasons.  This is about all exits of all routes, and
has been shown for each of them, `ends_handleWith`.

Together they say when the status is 401, `authentication_gate`.
-/

namespace AccessControl

variable {i : Interpretation} {r : Registry} {context : Value}

/-! ## 1. What the gate does -/

/-- The event is the call of an access level. -/
def Event.OfLevel (r : Registry) (e : Event) : Prop :=
  ∃ name m, r.metadata? name = some m ∧ ∃ l ∈ m.levels, e = .called l.2.fn

/-- What happens when a request is turned away: exactly one record is made, of a denial that
answers no question, and no level is asked. -/
structure TurnedAway (r : Registry) (events : List Event) : Prop where
  record : ∃ a : Audit, events.filterMap Event.audit? = [a] ∧ a.subject.method = "intercept" ∧
    a.result = .deny
  levels : ∀ e ∈ events, ¬ e.OfLevel r

/-- A request that is turned away leaves its record, and the refusal is asked. -/
theorem exists_turnAway {α : Type} (hsink : r.SinkWorks i) (message resource userId : Value) :
    ∃ a : Audit, a.subject = .request ∧ a.result = .deny ∧
      (turnAway i r message resource userId : Run α) =
        ⟨recordEvents i r a ++ [.called r.authnRefusal], .error (i.refuse r.authnRefusal a)⟩ := by
  refine ⟨⟨.request, resource, userId, .deny, message⟩, rfl, rfl, ?_⟩
  simp only [turnAway, deliver_of_recorded (hsink _)]
  rfl

/-- A context that does not count is screened, and then the request is turned away. -/
theorem exists_authenticate (hsink : r.SinkWorks i) (hcontext : ¬ r.Accepts i context) :
    ∃ a : Audit, a.subject = .request ∧ a.result = .deny ∧
      authenticate i r context =
        ⟨(screen i r context).1 ++ (recordEvents i r a ++ [.called r.authnRefusal]),
          .error (i.refuse r.authnRefusal a)⟩ := by
  rw [← screen_eq_none_iff] at hcontext
  rw [authenticate]
  rcases hscreen : screen i r context with ⟨events, objection⟩
  rw [hscreen] at hcontext
  cases objection with
  | none => exact absurd rfl hcontext
  | some why =>
    obtain ⟨a, hsubject, hresult, hturned⟩ := exists_turnAway (α := Value) hsink
      (.text why.message) (.text "authentication") (.text (contextUserId context))
    refine ⟨a, hsubject, hresult, ?_⟩
    simp only [hturned]
    rw [Run.bind_of_ok rfl]

namespace Rulebook

variable {logging : Bool}

/-- The level of the rulebook that an event is the call of. -/
theorem exists_rule_of_ofLevel {e : Event} (h : e.OfLevel (registry logging)) :
    ∃ l : UserLevel, e = .called (.rule l.rule) := by
  obtain ⟨name, m, hm, level, hlevel, rfl⟩ := h
  rw [eq_metadata_of_metadata? hm] at hlevel
  obtain ⟨l, -, rfl⟩ := List.mem_map.mp hlevel
  exact ⟨l, rfl⟩

/-- The check of the application is none of its levels. -/
theorem not_ofLevel_of_ofCheck {e : Event} (h : e.OfCheck (registry logging)) :
    ¬ e.OfLevel (registry logging) := by
  intro hlevel
  obtain ⟨l, rfl⟩ := exists_rule_of_ofLevel hlevel
  obtain ⟨c, hc, hfn⟩ := h
  rw [List.mem_singleton.mp hc] at hfn
  cases l <;> cases hfn

/-- A request that is turned away with recording on. -/
theorem turnedAway_of_checked {asked : List Event} {a : Audit}
    (hasked : ∀ e ∈ asked, e.OfCheck (registry true)) (hsubject : a.subject = .request)
    (hresult : a.result = .deny) (line : LogRecord) (hline : line.audit = none) :
    TurnedAway (registry true)
      (asked ++ (recordEvents .standard (registry true) a ++
        [.called (registry true).authnRefusal]) ++ [.logged line]) := by
  have hrecord : recordEvents .standard (registry true) a =
      [.called (.sink .securityLog), .logged (Interpretation.securityLine a)] := rfl
  rw [hrecord]
  refine ⟨⟨a, ?_, by rw [hsubject]; rfl, hresult⟩, ?_⟩
  · have hnone : asked.filterMap Event.audit? = [] :=
      List.filterMap_eq_nil_iff.mpr fun e he => (hasked e he).ofPredicate.audit?_eq_none
    have hlast : (Event.logged line).audit? = none := hline
    rw [List.filterMap_append, List.filterMap_append, hnone, List.filterMap_cons_none hlast]
    rfl
  · intro e he hlevel
    rw [List.append_assoc, List.mem_append] at he
    rcases he with he | he
    · exact not_ofLevel_of_ofCheck (hasked e he) hlevel
    · obtain ⟨l, rfl⟩ := exists_rule_of_ofLevel hlevel
      simp [registry, declared] at he

end Rulebook

namespace Http

open Handler

/-! ## 2. Handlers behind the gate -/

namespace Handler

variable {α β γ : Type} {gate : Handler α} {h : Handler β}

/-- The handler begins with the gate: where the gate fails, nothing else happens. -/
def Gated (gate : Handler α) (h : Handler β) : Prop :=
  ∀ d f, (gate.run d).outcome = .error f →
    h.run d = ⟨(gate.run d).directory, (gate.run d).events, .error f⟩

theorem gated_self (gate : Handler α) : Gated gate gate := by
  intro d f hf
  rw [← hf]

theorem gated_bind (hh : Gated gate h) (f : β → Handler γ) : Gated gate (h >>= f) := by
  intro d e he
  have hrun := hh d e he
  rw [run_bind_of_error (congrArg Result.outcome hrun), hrun]

end Handler

/-- **Every endpoint but the probe** begins with the gate. -/
theorem Endpoint.gated_handleWith (published : Option Registry) (a : Access) (r : Request)
    (body : Option Value) {e : Endpoint} (he : e ≠ .health) :
    Gated a.authenticated (e.handleWith published a r body) := by
  have hpermitted : ∀ action, Gated a.authenticated (a.permitted action) := fun _ =>
    gated_bind (gated_self _) _
  cases e with
  | ownRecord => exact gated_bind (gated_self _) _
  | listUsers => exact gated_bind (hpermitted _) _
  | createUser => exact gated_bind (hpermitted _) _
  | readUser userId => exact gated_bind (hpermitted _) _
  | changeUser userId => exact gated_bind (hpermitted _) _
  | removeUser userId => exact gated_bind (hpermitted _) _
  | listRoles => exact gated_bind (gated_self _) _
  | showRole role => exact gated_bind (gated_self _) _
  | listResources => exact gated_bind (gated_self _) _
  | ownAccess => exact gated_bind (gated_self _) _
  | tryPermission resource action => exact gated_bind (gated_self _) _
  | tryRelationship resource held => exact gated_bind (gated_self _) _
  | health => exact absurd rfl he

/-! ## 3. Who is turned away -/

variable {settings : Settings} {accounts : List Account} {d : Directory} {logging : Bool}
  {caller : Option Account} {r : Request} {e : Endpoint} {s : Server} {c : Account}

/-- The request has no valid caller: it forwards no id, an empty one, one that no account has, or
that of an account that is not active. -/
inductive Request.Unidentified (r : Request) (settings : Settings) (accounts : List Account) : Prop
  | absent (hheader : r.header? (Text.small settings.identityHeader) = none)
  | empty (hheader : r.header? (Text.small settings.identityHeader) = some "")
  | unknown (id : String) (hheader : r.header? (Text.small settings.identityHeader) = some id)
      (hid : ∀ c ∈ accounts, c.userId ≠ id)
  | inactive (c : Account) (hc : c ∈ accounts)
      (hheader : r.header? (Text.small settings.identityHeader) = some c.userId)
      (hstatus : c.status ≠ .active)

/-- A request has no valid caller unless it is made in the name of an active account. -/
theorem Request.unidentified_iff (hd : d.Holds accounts) :
    r.Unidentified settings accounts ↔
      ∀ c, r.caller? settings accounts = some c → c.status ≠ .active := by
  constructor
  · intro hr c hcaller
    obtain ⟨hc, hid, hheader⟩ := (caller?_eq_some_iff hd).mp hcaller
    cases hr with
    | absent hnone =>
      rw [hnone] at hheader
      cases hheader
    | empty hempty =>
      rw [hempty] at hheader
      exact absurd (Option.some.inj hheader).symm hid
    | unknown id hother hnobody =>
      rw [hother] at hheader
      exact absurd (Option.some.inj hheader).symm (hnobody c hc)
    | inactive b hb hother hstatus =>
      rw [hother] at hheader
      rw [hd.eq_of_userId_eq hc hb (Option.some.inj hheader).symm]
      exact hstatus
  · intro hcaller
    cases hheader : r.header? (Text.small settings.identityHeader) with
    | none => exact .absent hheader
    | some id =>
      by_cases hid : id = ""
      · exact .empty (by rw [hheader, hid])
      · by_cases hknown : ∃ c ∈ accounts, c.userId = id
        · obtain ⟨c, hc, rfl⟩ := hknown
          exact .inactive c hc hheader
            (hcaller c ((caller?_eq_some_iff hd).mpr ⟨hc, hid, hheader⟩))
        · exact .unknown id hheader fun c hc heq => hknown ⟨c, hc, heq⟩

/-- The context of nobody does not count, and that of an account does if the account is active. -/
theorem accepts_contextOf_iff :
    (Rulebook.registry logging).Accepts .standard (contextOf caller) ↔
      ∃ c, caller = some c ∧ c.status = .active := by
  cases caller with
  | none =>
    constructor
    · intro h
      cases h.bound
    · rintro ⟨c, hc, -⟩
      cases hc
  | some c =>
    rw [contextOf, Option.map_some, Option.getD_some, Rulebook.accepts_context_iff]
    constructor
    · exact fun hactive => ⟨c, rfl, hactive⟩
    · rintro ⟨b, hb, hactive⟩
      cases hb
      exact hactive

/-- A caller whose context counts is identified. -/
theorem identified_access {context : Value}
    (h : (Rulebook.registry logging).Accepts .standard context) :
    (access logging (.resolved context)).Identified context where
  caller := rfl
  accepts := h
  sink := sinkWorks_registry logging
  refusal := fun _ => Failure.authenticated_of_status rfl (by decide : 403 ≠ 401)

/-- **The gate, closed.**  A caller whose context does not count is turned away, and nothing else
happens. -/
theorem exists_authenticated_run (d : Directory) {context : Value}
    (h : ¬ (Rulebook.registry logging).Accepts .standard context) :
    ∃ a : Audit, a.subject = .request ∧ a.result = .deny ∧
      (access logging (.resolved context)).authenticated.run d =
        ⟨d, (screen .standard (Rulebook.registry logging) context).1 ++
            (recordEvents .standard (Rulebook.registry logging) a ++
              [.called (Rulebook.registry logging).authnRefusal]),
          .error (.fault (.status (.unauthenticated a)))⟩ := by
  have hsink := sinkWorks_registry logging
  have hharmless : (Rulebook.registry logging).SinkHarmless .standard :=
    harmless_access logging (.resolved context)
  by_cases hnull : context.isNull = true
  · obtain ⟨a, hsubject, hresult, hturned⟩ := exists_turnAway (α := Value) hsink
      (.text "Authentication required") (.text "authentication") (.text "unknown")
    have hgate : (access logging (.resolved context)).authenticated =
        ofRun (turnAway .standard (Rulebook.registry logging) (.text "Authentication required")
          (.text "authentication") (.text "unknown")) := if_pos hnull
    refine ⟨a, hsubject, hresult, ?_⟩
    rw [hgate, run_ofRun_of_harmless (harmless_of_mem_turnAway hharmless _ _ _), hturned, screen,
      if_pos hnull]
    rfl
  · obtain ⟨a, hsubject, hresult, hturned⟩ := exists_authenticate hsink h
    have hgate : (access logging (.resolved context)).authenticated =
        ofRun (authenticate .standard (Rulebook.registry logging) context) :=
      Access.authenticated_of_resolved rfl (Bool.eq_false_iff.mpr hnull)
    refine ⟨a, hsubject, hresult, ?_⟩
    rw [hgate, run_ofRun_of_harmless (harmless_of_mem_authenticate hharmless), hturned]
    rfl

/-! ## 4. The status -/

/-- The request is looked at and leads to an endpoint other than the probe, and its body can be
read if the endpoint takes one. -/
structure Request.Reaches (r : Request) (settings : Settings) (e : Endpoint) : Prop where
  host : hostAllowed settings r = true
  request : isPreflight r = false
  route : Endpoint.route r = .ok e
  guarded : e ≠ .health
  body : e.takesBody = true → ∃ body, r.readBody = .ok body

/-- The request is made by this method and in the name of an account that is active. -/
structure Request.MadeBy (r : Request) (method : String) (settings : Settings)
    (accounts : List Account) (c : Account) : Prop where
  method : r.method = method
  host : hostAllowed settings r = true
  caller : c ∈ accounts ∧ c.userId ≠ "" ∧
    r.header? (Text.small settings.identityHeader) = some c.userId
  active : c.status = .active

/-- A request that reaches an endpoint is handled there with its body. -/
theorem Request.Reaches.exists_body (hr : r.Reaches settings e) (published : Option Registry)
    (a : Access) : ∃ body, e.handle published a r = e.handleWith published a r body := by
  rcases e.handle_cases published a r with hbody | ⟨f, htakes, hread, -⟩
  · exact hbody
  · obtain ⟨body, hbody⟩ := hr.body htakes
    rw [hbody] at hread
    cases hread

namespace Server

/-- A running server handles a request that reaches an endpoint there, and logs one line. -/
theorem Running.serve_of_reaches (hs : s.Running settings accounts) (hr : r.Reaches settings e) :
    ∃ body result line, result = (e.handleWith s.publishedRegistry (access settings.authzLogging
        (.resolved (contextOf (r.caller? settings accounts)))) r body).run s.directory ∧
      line.audit = none ∧ (s.serve .standard r).1.directory = result.directory ∧
      (s.serve .standard r).2.response.status = statusOf result.outcome ∧
      (s.serve .standard r).2.events = result.events ++ [.logged line] := by
  have hadmits : s.Admits r := ⟨by rw [hs.settings_eq]; exact hr.host, hr.request⟩
  obtain ⟨result, line, hresult, hserved⟩ := hs.serve_of_route hadmits hr.route
  obtain ⟨body, hhandle⟩ := hr.exists_body s.publishedRegistry (access settings.authzLogging
    (.resolved (contextOf (r.caller? settings accounts))))
  rw [hhandle] at hresult
  exact ⟨body, result, line, hresult, hserved⟩

/-- A request in the name of an account is looked at, unless it is a question about origins. -/
theorem Running.admits (hs : s.Running settings accounts) {method : String}
    (hr : r.MadeBy method settings accounts c) (hmethod : method ≠ "OPTIONS") : s.Admits r := by
  have hpreflight : isPreflight r = false := by
    rw [isPreflight, hr.method, beq_false_of_ne hmethod]
    rfl
  exact ⟨by rw [hs.settings_eq]; exact hr.host, hpreflight⟩

/-- A request that leads nowhere is answered with the response that says so. -/
theorem Running.answers_unrouted (hs : s.Running settings accounts) (hadmits : s.Admits r)
    {response : Response} (hroute : Endpoint.route r = .error response) :
    (s.serve .standard r).1 = s ∧ (s.serve .standard r).2.response.status = response.status := by
  have hdispatch := hs.run_dispatch r
  rw [hroute] at hdispatch
  have hstatus := (serve_of_admits hadmits .standard).2.1
  rw [hdispatch] at hstatus
  refine ⟨?_, hstatus⟩
  rw [serve_eq_of_admits hadmits, hdispatch]

/-- **A running server answers** a request that is made in the name of an account as its endpoint
has handled it: with its directory, its status, and the content of its response if there is one. -/
theorem Running.answers (hs : s.Running settings accounts) {method : String}
    (hr : r.MadeBy method settings accounts c) (hmethod : method ≠ "OPTIONS")
    (hroute : Endpoint.route r = .ok e) :
    ∃ result, result = (e.handle s.publishedRegistry (access settings.authzLogging
        (.resolved c.context)) r).run s.directory ∧
      (s.serve .standard r).1 = { s with directory := result.directory } ∧
      (s.serve .standard r).2.response.status = statusOf result.outcome ∧
      ∀ response, result.outcome = .ok response →
        (s.serve .standard r).2.response.content = response.content := by
  have hadmits := hs.admits hr hmethod
  have hcaller : r.caller? settings accounts = some c :=
    (Request.caller?_eq_some_iff hs.holds).mpr hr.caller
  have hdispatch := hs.run_dispatch r
  rw [hroute, hcaller] at hdispatch
  have hstatus := (serve_of_admits hadmits .standard).2.1
  refine ⟨_, rfl, ?_, ?_, fun response hresponse => ?_⟩
  · rw [serve_eq_of_admits hadmits, hdispatch]
    rfl
  · rw [hstatus, hdispatch]
    rfl
  · have houtcome : ((s.dispatch .standard r).run s.directory).outcome = .ok response := by
      rw [hdispatch]
      exact hresponse
    rw [serve_eq_of_admits hadmits, houtcome]
    rfl

/-- A request without a valid caller is turned away. -/
theorem Running.turned_away (hs : s.Running settings accounts)
    (hlogging : settings.authzLogging = true) (hr : r.Reaches settings e)
    (hnobody : r.Unidentified settings accounts) :
    (s.serve .standard r).2.response.status = 401 ∧
      (s.serve .standard r).1.directory = s.directory ∧
      TurnedAway s.registry (s.serve .standard r).2.events := by
  obtain ⟨body, result, line, hresult, hline, hdirectory, hstatus, hevents⟩ :=
    hs.serve_of_reaches hr
  have hrejected : ¬ (Rulebook.registry true).Accepts .standard
      (contextOf (r.caller? settings accounts)) := by
    rw [accepts_contextOf_iff]
    rintro ⟨c, hcaller, hactive⟩
    exact (Request.unidentified_iff hs.holds).mp hnobody c hcaller hactive
  obtain ⟨a, hsubject, hdenied, hgate⟩ := exists_authenticated_run s.directory hrejected
  rw [hlogging, Endpoint.gated_handleWith _ _ r body hr.guarded _ _ (congrArg Result.outcome hgate),
    hgate] at hresult
  rw [hdirectory, hstatus, hevents, hresult, hs.registry_eq, hlogging]
  exact ⟨rfl, rfl,
    Rulebook.turnedAway_of_checked ofCheck_of_mem_screen hsubject hdenied line hline⟩

/-- A request with a valid caller is not. -/
theorem Running.status_ne (hs : s.Running settings accounts) (hr : r.Reaches settings e)
    (hsomebody : ¬ r.Unidentified settings accounts) :
    (s.serve .standard r).2.response.status ≠ 401 := by
  obtain ⟨body, result, line, hresult, -, -, hstatus, -⟩ := hs.serve_of_reaches hr
  have haccepts : (Rulebook.registry settings.authzLogging).Accepts .standard
      (contextOf (r.caller? settings accounts)) := by
    rw [accepts_contextOf_iff]
    by_contra hnone
    exact hsomebody ((Request.unidentified_iff hs.holds).mpr fun c hcaller hactive =>
      hnone ⟨c, hcaller, hactive⟩)
  have hends := Endpoint.ends_handleWith (identified_access haccepts) s.publishedRegistry r body e
    s.directory
  rw [← hresult] at hends
  rw [hstatus]
  cases houtcome : result.outcome with
  | error f =>
    rw [houtcome] at hends
    exact hends
  | ok response =>
    rw [houtcome] at hends
    exact Nat.ne_of_lt (Nat.lt_trans hends (by decide))

end Server

/-- **The gate.**  Let decisions be recorded.  Take any seed that a server can be started with,
let the server serve any requests, and then one that reaches an endpoint other than the probe.
The status is 401 if and only if the request has no valid caller at that moment.  Then the
directory stays as it is, no level is asked, and exactly one record is made, of a denial.  A
request in the name of an active account never has the status 401. -/
theorem authentication_gate {location : String} {contents : Option (List UInt8)}
    (hstart : (Server.start settings location contents).2 = .ok s)
    (hlogging : settings.authzLogging = true) (requests : List Request)
    (hr : r.Reaches settings e) :
    ∃ accounts, (s.serveAll .standard requests).directory.Holds accounts ∧
      (((s.serveAll .standard requests).serve .standard r).2.response.status = 401 ↔
        r.Unidentified settings accounts) ∧
      (((s.serveAll .standard requests).serve .standard r).2.response.status = 401 →
        ((s.serveAll .standard requests).serve .standard r).1.directory =
            (s.serveAll .standard requests).directory ∧
          TurnedAway s.registry
            ((s.serveAll .standard requests).serve .standard r).2.events) ∧
      ∀ c ∈ accounts, c.status = .active → c.userId ≠ "" →
        r.header? (Text.small settings.identityHeader) = some c.userId →
          ((s.serveAll .standard requests).serve .standard r).2.response.status ≠ 401 := by
  obtain ⟨seeded, hseeded⟩ := Server.exists_running_of_start hstart
  obtain ⟨accounts, hs⟩ := hseeded.exists_serveAll requests
  have hregistry : s.registry = (s.serveAll .standard requests).registry :=
    hseeded.registry_eq.trans hs.registry_eq.symm
  have hiff : ((s.serveAll .standard requests).serve .standard r).2.response.status = 401 ↔
      r.Unidentified settings accounts := by
    constructor
    · exact fun h => by_contra fun hsomebody => hs.status_ne hr hsomebody h
    · exact fun h => (hs.turned_away hlogging hr h).1
  refine ⟨accounts, hs.holds, hiff, fun h => ?_, fun c hc hactive hid hheader h => ?_⟩
  · rw [hregistry]
    exact (hs.turned_away hlogging hr (hiff.mp h)).2
  · have hcaller := (Request.caller?_eq_some_iff hs.holds).mpr ⟨hc, hid, hheader⟩
    exact (Request.unidentified_iff hs.holds).mp (hiff.mp h) c hcaller hactive

/-- A seed with an administrator who is suspended. -/
def suspendedSeed : List UInt8 :=
  "[\x7b\"user_id\":\"a1\",\"role\":\"ADMIN\",\"status\":\"SUSPENDED\"\x7d]".toUTF8.toList

/-- The administrator asks for the list of users. -/
def asking : Request := requestBy "a1" "GET" "/api/v1/users" ""

/-- The case of an administrator who is suspended. -/
theorem authentication_gate_suspended :
    ∃ s, (Server.start seededSettings "users.json" (some suspendedSeed)).2 = .ok s ∧
      seededSettings.authzLogging = true ∧ asking.Reaches seededSettings .listUsers ∧
      (s.serve .standard asking).2.response.status = 401 ∧
      ∃ accounts, s.directory.Holds accounts ∧
        ((s.serve .standard asking).2.response.status = 401 ↔
          asking.Unidentified seededSettings accounts) ∧
        ((s.serve .standard asking).2.response.status = 401 →
          (s.serve .standard asking).1.directory = s.directory ∧
            TurnedAway s.registry (s.serve .standard asking).2.events) ∧
        ∀ c ∈ accounts, c.status = .active → c.userId ≠ "" →
          asking.header? (Text.small seededSettings.identityHeader) = some c.userId →
            (s.serve .standard asking).2.response.status ≠ 401 := by
  have htested : (Server.start seededSettings "users.json" (some suspendedSeed)).2.toOption.any
      (fun s => (s.serve .standard asking).2.response.status == 401) = true := by
    decide +kernel
  obtain ⟨s, hstart, hstatus⟩ := exists_ok_of_any htested
  have hreaches : asking.Reaches seededSettings .listUsers :=
    ⟨by decide +kernel, by decide +kernel, rfl, by decide, fun htakes => nomatch htakes⟩
  exact ⟨s, hstart, rfl, hreaches, eq_of_beq hstatus,
    authentication_gate hstart rfl [] hreaches⟩

end Http

end AccessControl
