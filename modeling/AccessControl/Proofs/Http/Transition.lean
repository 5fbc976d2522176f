import AccessControl.Proofs.Application.Authority
import AccessControl.Proofs.Directory.SeedFile
import AccessControl.Proofs.Http.Deed
import AccessControl.Proofs.Http.Serving

/-!
# Authorised transitions

A server that has been started keeps its settings and its registry; what changes is the directory.
The directory holds accounts at the start, and one request makes of these accounts either nothing
or one of three things, each in the name of an active account whose id the request forwards.

* `Creation`: one account is added at the end.
* `Revision`: one account changes, in its address and in its name only.
* `Deletion`: one account is taken away.

Each of the three comes with what the caller must be in order to do it.

## The proof

`Running` says what a server keeps, and `Running.step` what one request does; the three kinds of
requests that write are looked at one by one, and the rest is quiet.  Since every transition leads
from accounts to accounts, `Running` is kept along any sequence of requests, and the main statement
`changes_authorised` holds of every directory that a server ever reaches.
-/

namespace AccessControl.Http

open Handler

/-! ## 1. Transitions -/

variable {c u t t' : Account} {accounts accounts' : List Account}

/-- In the name of the caller an account is added at the end: its id is new, it is active and has
the rank of its role, and those that it manages are there.  The caller is a super admin, or an
admin without less authority than the new account and each of those that it manages. -/
structure Creation (c : Account) (accounts accounts' : List Account) (u : Account) : Prop where
  added : accounts' = accounts ++ [u]
  fresh : ∀ b ∈ accounts, b.userId ≠ u.userId
  rank : u.rank = u.role.rank
  active : u.status = .active
  assigned : ∀ id ∈ u.assigned, ∃ t ∈ accounts, t.userId = id
  authority : c.role = .superAdmin ∨ c.role = .admin ∧ c.rank ≤ u.rank ∧
    ∀ t ∈ accounts, t.userId ∈ u.assigned → c.rank ≤ t.rank

/-- In the name of the caller one account changes, at its place, and in no more than its address
and its name.  The caller is a super admin, an admin without less authority, a manager of this
account, or the account itself. -/
structure Revision (c : Account) (accounts accounts' : List Account) (t t' : Account) : Prop where
  place : ∃ before after, accounts = before ++ t :: after ∧ accounts' = before ++ t' :: after
  fields : t' = { t with email := t'.email, displayName := t'.displayName }
  changed : t' ≠ t
  authority : c.role = .superAdmin ∨ c.role = .admin ∧ c.rank ≤ t.rank ∨
    c.role = .manager ∧ (t.userId ∈ c.assigned ∨ t.userId = c.userId) ∨
    (c.role = .agent ∨ c.role = .seller) ∧ t.userId = c.userId

/-- In the name of the caller one account is taken away.  The caller is a super admin, or an admin
without less authority. -/
structure Deletion (c : Account) (accounts accounts' : List Account) (t : Account) : Prop where
  place : ∃ before after, accounts = before ++ t :: after ∧ accounts' = before ++ after
  authority : c.role = .superAdmin ∨ c.role = .admin ∧ c.rank ≤ t.rank

/-- One of the three. -/
inductive Transition (c : Account) (accounts accounts' : List Account) : Prop
  | creation (u : Account) (h : Creation c accounts accounts' u)
  | revision (t t' : Account) (h : Revision c accounts accounts' t t')
  | deletion (t : Account) (h : Deletion c accounts accounts' t)

theorem Creation.length (h : Creation c accounts accounts' u) :
    accounts'.length = accounts.length + 1 := by
  rw [h.added, List.length_append, List.length_singleton]

theorem Revision.length (h : Revision c accounts accounts' t t') :
    accounts'.length = accounts.length := by
  obtain ⟨before, after, rfl, rfl⟩ := h.place
  simp

theorem Deletion.length (h : Deletion c accounts accounts' t) :
    accounts'.length + 1 = accounts.length := by
  obtain ⟨before, after, rfl, rfl⟩ := h.place
  simp [Nat.add_assoc]

/-- One of three statements holds, and no two of them. -/
def ExactlyOne (p q r : Prop) : Prop :=
  p ∧ ¬ q ∧ ¬ r ∨ ¬ p ∧ q ∧ ¬ r ∨ ¬ p ∧ ¬ q ∧ r

/-- The three kinds of transitions exclude one another: they change the number of accounts in
different ways. -/
theorem Transition.exactlyOne (h : Transition c accounts accounts') :
    ExactlyOne (∃ u, Creation c accounts accounts' u)
      (∃ t t', Revision c accounts accounts' t t') (∃ t, Deletion c accounts accounts' t) := by
  cases h with
  | creation u h =>
    have hlength := h.length
    refine Or.inl ⟨⟨u, h⟩, ?_, ?_⟩
    · rintro ⟨t, t', hrevision⟩
      have := hrevision.length
      omega
    · rintro ⟨t, hdeletion⟩
      have := hdeletion.length
      omega
  | revision t t' h =>
    have hlength := h.length
    refine Or.inr (Or.inl ⟨?_, ⟨t, t', h⟩, ?_⟩)
    · rintro ⟨u, hcreation⟩
      have := hcreation.length
      omega
    · rintro ⟨t, hdeletion⟩
      have := hdeletion.length
      omega
  | deletion t h =>
    have hlength := h.length
    refine Or.inr (Or.inr ⟨?_, ?_, ⟨t, h⟩⟩)
    · rintro ⟨u, hcreation⟩
      have := hcreation.length
      omega
    · rintro ⟨t, t', hrevision⟩
      have := hrevision.length
      omega

/-! ## 2. What the writing routes do to accounts -/

/-- What a server keeps while it runs: its settings, the registry of the application, where it has
been published, and accounts in its directory. -/
structure Server.Running (s : Server) (settings : Settings) (accounts : List Account) : Prop where
  settings_eq : s.settings = settings
  registry_eq : s.registry = Rulebook.registry settings.authzLogging
  published_eq : s.published = true
  holds : s.directory.Holds accounts

variable {d : Directory} {logging : Bool} {caller : Caller}

/-- What the routes of the application decide with. -/
def access (logging : Bool) (caller : Caller) : Access :=
  ⟨.standard, Rulebook.registry logging, caller⟩

theorem harmless_access (logging : Bool) (caller : Caller) : (access logging caller).Harmless := by
  intro audit e he
  rw [List.mem_singleton.mp he]
  trivial

/-- The account that a new user is. -/
def NewUser.account (n : NewUser) : Account where
  userId := n.userId
  email := .text n.email
  role := n.role
  rank := n.role.rank
  status := .active
  displayName := .text n.displayName
  assigned := n.assignedUsers

/-- The account with what is to change. -/
def UserChanges.applyTo (changes : UserChanges) (t : Account) : Account :=
  { t with
    email := (changes.email.map Value.text).getD t.email
    displayName := (changes.displayName.map Value.text).getD t.displayName }

theorem UserChanges.changed_fields (changes : UserChanges) (t : Account) :
    Directory.changed t.user changes.fields = .ok (changes.applyTo t).user :=
  changes.changed_eq_revise t.user

/-- What the engine allows on a user that has been looked up, the caller may do to an account. -/
theorem may_of_get (hd : d.Holds accounts) (hactive : c.status = .active) {action : UserAction}
    {userId : String} {u : User} (hu : d.get (.text userId) = .ok (some u))
    (hallowed : (access logging caller).Allowed c.context action u) :
    ∃ t ∈ accounts, t.userId = userId ∧ u = t.user ∧ c.May action t := by
  obtain ⟨t, ht, hid, rfl⟩ := Directory.exists_of_get hd hu
  obtain ⟨answer, hanswer⟩ := hallowed
  exact ⟨t, ht, hid, rfl, Rulebook.may_of_allowed hactive hanswer⟩

/-- A user who is added by a caller is a creation. -/
theorem creation_of_add (hd : d.Holds accounts) (hactive : c.status = .active) {new : NewUser}
    {d' : Directory} (hallowed : (access logging caller).Allowed c.context .create new.user)
    (hassigned : ∀ userId ∈ new.assignedUsers, ∃ u, d.get (.text userId) = .ok (some u) ∧
      (access logging caller).Allowed c.context .update u)
    (hadd : d.add new.user = .ok d') :
    d'.Holds (accounts ++ [new.account]) ∧
      Creation c accounts (accounts ++ [new.account]) new.account := by
  obtain ⟨hfresh, hholds⟩ := Directory.holds_of_add (a := new.account) hd hadd
  have hthere : ∀ id ∈ new.assignedUsers, ∃ t ∈ accounts, t.userId = id ∧ c.May .update t := by
    intro id hid
    obtain ⟨u, hu, hmay⟩ := hassigned id hid
    obtain ⟨t, ht, htid, -, htmay⟩ := may_of_get hd hactive hu hmay
    exact ⟨t, ht, htid, htmay⟩
  obtain ⟨answer, hanswer⟩ := hallowed
  have hcreate : c.May .create new.account := Rulebook.may_of_allowed hactive hanswer
  refine ⟨hholds, rfl, hfresh, rfl, rfl, fun id hid => ?_, ?_⟩
  · obtain ⟨t, ht, htid, -⟩ := hthere id hid
    exact ⟨t, ht, htid⟩
  · rcases (Rulebook.may_create_delete_iff (Or.inl rfl)).mp hcreate with hsuper | ⟨hadmin, hrank⟩
    · exact Or.inl hsuper
    · refine Or.inr ⟨hadmin, hrank, fun t ht hmem => ?_⟩
      obtain ⟨w, hw, hwid, hwmay⟩ := hthere t.userId hmem
      rw [hd.eq_of_userId_eq ht hw hwid.symm]
      rcases Rulebook.may_update_iff.mp hwmay with hsuper | ⟨-, hle⟩ | ⟨hmanager, -⟩ | ⟨hlow, -⟩
      · rw [hadmin] at hsuper
        cases hsuper
      · exact hle
      · rw [hadmin] at hmanager
        cases hmanager
      · rw [hadmin] at hlow
        rcases hlow with h | h <;> cases h

/-- A user who is changed by a caller is a revision, unless nothing has changed. -/
theorem revision_of_update (hd : d.Holds accounts) (ht : t ∈ accounts) {changes : UserChanges}
    (hmay : c.May .update t)
    (hchanged : (d.update (.text t.userId) changes.fields).1 ≠ d) :
    ∃ accounts', (d.update (.text t.userId) changes.fields).1.Holds accounts' ∧
      Revision c accounts accounts' t (changes.applyTo t) := by
  obtain ⟨before, after, rfl⟩ := List.append_of_mem ht
  have hholds := Directory.holds_of_update hd changes.givenTwice?_fields
    (changes.changed_fields t) rfl
  refine ⟨_, hholds, ⟨before, after, rfl, rfl⟩, rfl, fun heq => ?_,
    Rulebook.may_update_iff.mp hmay⟩
  rw [heq] at hholds
  have husers := hholds.users.trans hd.users.symm
  exact hchanged (congrArg Directory.mk husers)

/-- A user who is removed by a caller is a deletion. -/
theorem deletion_of_remove (hd : d.Holds accounts) (ht : t ∈ accounts) (hmay : c.May .delete t) :
    ∃ accounts', (d.remove (.text t.userId)).1.Holds accounts' ∧
      Deletion c accounts accounts' t := by
  obtain ⟨before, after, rfl⟩ := List.append_of_mem ht
  exact ⟨_, Directory.holds_of_remove hd, ⟨before, after, rfl, rfl⟩,
    (Rulebook.may_create_delete_iff (Or.inr rfl)).mp hmay⟩

/-- **The endpoints.**  If the directory changes at an endpoint, there is a caller whose context
counts, and it has changed by a transition in the name of the account that this context is of. -/
theorem transition_of_handleWith (hd : d.Holds accounts) {published : Option Registry}
    {r : Request} {body : Option Value} {e : Endpoint}
    (hchanged : ((e.handleWith published (access logging caller) r body).run d).directory ≠ d) :
    ∃ context, caller = .resolved context ∧
      (Rulebook.registry logging).Accepts .standard context ∧
      ∀ c : Account, context = c.context → c.status = .active → ∃ accounts',
        ((e.handleWith published (access logging caller) r body).run d).directory.Holds accounts' ∧
        Transition c accounts accounts' := by
  have ha := harmless_access logging caller
  cases hwrites : e.writes with
  | false => exact absurd (Endpoint.quiet_handleWith ha published r body hwrites d) hchanged
  | true =>
    cases e with
    | createUser =>
      obtain ⟨context, new, hcaller, haccepts, -, hallowed, hassigned, hadd⟩ :=
        UserRoutes.changed_by_create ha hchanged
      refine ⟨context, hcaller, haccepts, ?_⟩
      rintro c rfl hactive
      obtain ⟨hholds, hcreation⟩ := creation_of_add hd hactive hallowed hassigned hadd
      exact ⟨_, hholds, .creation _ hcreation⟩
    | changeUser userId =>
      obtain ⟨context, changes, u, hcaller, haccepts, -, hu, hallowed, hupdate⟩ :=
        UserRoutes.changed_by_change ha hchanged
      refine ⟨context, hcaller, haccepts, ?_⟩
      rintro c rfl hactive
      obtain ⟨t, ht, rfl, -, hmay⟩ := may_of_get hd hactive hu hallowed
      rw [Endpoint.handleWith, hupdate] at hchanged ⊢
      obtain ⟨accounts', hholds, hrevision⟩ := revision_of_update hd ht hmay hchanged
      exact ⟨accounts', hholds, .revision t _ hrevision⟩
    | removeUser userId =>
      obtain ⟨context, u, hcaller, haccepts, hu, hallowed, hremove⟩ :=
        UserRoutes.changed_by_remove ha hchanged
      refine ⟨context, hcaller, haccepts, ?_⟩
      rintro c rfl hactive
      obtain ⟨t, ht, rfl, -, hmay⟩ := may_of_get hd hactive hu hallowed
      rw [Endpoint.handleWith, hremove]
      obtain ⟨accounts', hholds, hdeletion⟩ := deletion_of_remove (c := c) hd ht hmay
      exact ⟨accounts', hholds, .deletion t hdeletion⟩
    | _ => cases hwrites

/-! ## 3. Requests -/

namespace Server

variable {s : Server} {settings : Settings} {r : Request}

/-- **The dispatch of a request** leads to its endpoint, with the account that is calling. -/
theorem Running.run_dispatch (hs : s.Running settings accounts) (r : Request) :
    (s.dispatch .standard r).run s.directory =
      match Endpoint.route r with
      | .error response => ⟨s.directory, [], .ok response⟩
      | .ok e => (e.handle s.publishedRegistry (access settings.authzLogging
          (.resolved (contextOf (r.caller? settings accounts)))) r).run s.directory := by
  have hresolver : s.publishedRegistry.bind Registry.resolver = some (.resolver .directory) := by
    rw [publishedRegistry, hs.published_eq, hs.registry_eq]
    rfl
  have hresolve : (Caller.resolve settings (some (.resolver .directory)) r).run s.directory =
      ⟨s.directory, [], .ok (.resolved (contextOf (r.caller? settings accounts)))⟩ :=
    Caller.run_resolve hs.holds
  rw [dispatch, hresolver, hs.settings_eq, run_bind_of_ok (congrArg Result.outcome hresolve),
    hresolve, hs.registry_eq]
  cases Endpoint.route r with
  | error response => rfl
  | ok e => rfl

/-- A request that is looked at and leads to an endpoint is answered as the endpoint handles it,
and one line is logged. -/
theorem Running.serve_of_route (hs : s.Running settings accounts) (hadmits : s.Admits r)
    {e : Endpoint} (hroute : Endpoint.route r = .ok e) :
    ∃ result line, result = (e.handle s.publishedRegistry (access settings.authzLogging
        (.resolved (contextOf (r.caller? settings accounts)))) r).run s.directory ∧
      line.audit = none ∧ (s.serve .standard r).1.directory = result.directory ∧
      (s.serve .standard r).2.response.status = statusOf result.outcome ∧
      (s.serve .standard r).2.events = result.events ++ [.logged line] := by
  obtain ⟨hdirectory, hstatus, line, hline, hevents⟩ := serve_of_admits hadmits .standard
  rw [hs.run_dispatch r, hroute] at hdirectory hstatus hevents
  exact ⟨_, line, rfl, hline, hdirectory, hstatus, hevents⟩

/-- A request that changes the directory has come to an endpoint, and is answered as it has been
handled there. -/
theorem Running.exists_handled_of_changed (hs : s.Running settings accounts)
    (hchanged : (s.serve .standard r).1.directory ≠ s.directory) :
    ∃ e body result line, result = (Endpoint.handleWith s.publishedRegistry
        (access settings.authzLogging (.resolved (contextOf (r.caller? settings accounts))))
        r body e).run s.directory ∧
      line.audit = none ∧ (s.serve .standard r).1.directory = result.directory ∧
      (s.serve .standard r).2.response.status = statusOf result.outcome ∧
      (s.serve .standard r).2.events = result.events ++ [.logged line] := by
  by_cases hadmits : s.Admits r
  · cases hroute : Endpoint.route r with
    | error response =>
      obtain ⟨hdirectory, -⟩ := serve_of_admits hadmits .standard
      rw [hs.run_dispatch r, hroute] at hdirectory
      exact absurd hdirectory hchanged
    | ok e =>
      obtain ⟨result, line, hresult, hserved⟩ := hs.serve_of_route hadmits hroute
      rcases e.handle_cases s.publishedRegistry (access settings.authzLogging
          (.resolved (contextOf (r.caller? settings accounts)))) r with
        ⟨body, hhandle⟩ | ⟨f, -, -, hhandle⟩
      · rw [hhandle] at hresult
        exact ⟨e, body, result, line, hresult, hserved⟩
      · rw [hhandle] at hresult
        rw [hresult] at hserved
        exact absurd hserved.2.1 hchanged
  · exact absurd (directory_serve_of_not_admits hadmits .standard) hchanged

/-- **One request.**  It leaves the directory alone, or makes a transition of its accounts in the
name of an active one whose id the request forwards. -/
theorem Running.step (hs : s.Running settings accounts) (r : Request) :
    ∃ accounts', (s.serve .standard r).1.Running settings accounts' ∧
      (((s.serve .standard r).1.directory = s.directory ∧ accounts' = accounts) ∨
        ∃ c ∈ accounts, c.status = .active ∧
          r.header? (Text.small settings.identityHeader) = some c.userId ∧
          Transition c accounts accounts') := by
  by_cases hchanged : (s.serve .standard r).1.directory = s.directory
  · refine ⟨accounts, ⟨hs.settings_eq, hs.registry_eq, hs.published_eq, ?_⟩,
      Or.inl ⟨hchanged, rfl⟩⟩
    rw [hchanged]
    exact hs.holds
  · obtain ⟨e, body, result, line, rfl, -, hdirectory, -⟩ :=
      hs.exists_handled_of_changed hchanged
    rw [hdirectory] at hchanged
    obtain ⟨context, hcontext, haccepts, htransition⟩ :=
      transition_of_handleWith (e := e) hs.holds hchanged
    cases hcaller : r.caller? settings accounts with
    | none =>
      rw [hcaller] at hcontext
      cases hcontext
      cases haccepts.bound
    | some c =>
      rw [hcaller] at hcontext
      cases hcontext
      obtain ⟨hc, -, hheader⟩ := (Request.caller?_eq_some_iff hs.holds).mp hcaller
      have hactive : c.status = .active := Rulebook.accepts_context_iff.mp haccepts
      obtain ⟨accounts', hholds, htransition⟩ := htransition c rfl hactive
      refine ⟨accounts', ⟨hs.settings_eq, hs.registry_eq, hs.published_eq, ?_⟩,
        Or.inr ⟨c, hc, hactive, hheader, htransition⟩⟩
      rw [hdirectory]
      exact hholds

/-- A server starts with its own settings and registry, and with the directory of the seed. -/
theorem of_start {location : String} {contents : Option (List UInt8)}
    (h : (start settings location contents).2 = .ok s) :
    (startDirectory settings location contents).2 = .ok s.directory ∧
      s = ⟨settings, s.directory, Rulebook.registry settings.authzLogging, true⟩ := by
  rw [start] at h
  simp only [Rulebook.startRegistry_outcome] at h
  split at h
  · cases h
  · rename_i directory hseed
    cases h
    exact ⟨hseed, rfl⟩

/-- A server that has been started runs. -/
theorem exists_running_of_start {location : String} {contents : Option (List UInt8)}
    (h : (start settings location contents).2 = .ok s) :
    ∃ accounts, s.Running settings accounts := by
  obtain ⟨hseed, hs⟩ := of_start h
  have hholds : ∃ accounts, s.directory.Holds accounts := by
    rw [startDirectory] at hseed
    split at hseed
    · rw [← Except.ok.inj hseed]
      exact ⟨[], Directory.holds_empty⟩
    · obtain ⟨accounts, -, hholds⟩ := Directory.exists_seeded_of_load hseed
      exact ⟨accounts, hholds⟩
  obtain ⟨accounts, hholds⟩ := hholds
  rw [hs]
  exact ⟨accounts, rfl, rfl, rfl, hholds⟩

/-- A server runs as long as it serves requests. -/
theorem Running.exists_serveAll (hs : s.Running settings accounts) (requests : List Request) :
    ∃ accounts', (s.serveAll .standard requests).Running settings accounts' := by
  induction requests generalizing s accounts with
  | nil => exact ⟨accounts, hs⟩
  | cons r rest ih =>
    obtain ⟨accounts', hs', -⟩ := hs.step r
    exact ih hs'

/-- The accounts in the directory after some requests. -/
def accountsAfter (s : Server) (requests : List Request) : List Account :=
  (s.serveAll .standard requests).directory.accounts

theorem serveAll_concat (s : Server) (i : Interpretation) (served : List Request) (r : Request) :
    s.serveAll i (served ++ [r]) = ((s.serveAll i served).serve i r).1 := by
  rw [serveAll, List.foldl_append]
  rfl

/-- A server goes on running, with the accounts that are in its directory. -/
theorem Running.serveAll (hs : s.Running settings accounts) (requests : List Request) :
    (s.serveAll .standard requests).Running settings (s.accountsAfter requests) := by
  obtain ⟨accounts', hs'⟩ := hs.exists_serveAll requests
  rw [accountsAfter, hs'.holds.accounts_eq]
  exact hs'

end Server

/-! ## 4. Every directory -/

/-- **Authorised transitions.**  Take any seed that a server can be started with, let the server
serve any requests, and then one more.  If this request changes the directory, then it forwards
the id of an active account, and exactly one of three things has happened in the name of this
account: an account has been added, one has been revised, or one has been taken away, each with
the authority that this takes. -/
theorem changes_authorised {settings : Settings} {location : String}
    {contents : Option (List UInt8)} {s : Server}
    (hstart : (Server.start settings location contents).2 = .ok s) (requests : List Request)
    (r : Request)
    (hchanged : ((s.serveAll .standard requests).serve .standard r).1.directory ≠
      (s.serveAll .standard requests).directory) :
    ∃ accounts accounts' c, (s.serveAll .standard requests).directory.Holds accounts ∧
      ((s.serveAll .standard requests).serve .standard r).1.directory.Holds accounts' ∧
      c ∈ accounts ∧ c.status = .active ∧
      r.header? (Text.small settings.identityHeader) = some c.userId ∧
      ExactlyOne (∃ u, Creation c accounts accounts' u)
        (∃ t t', Revision c accounts accounts' t t') (∃ t, Deletion c accounts accounts' t) := by
  obtain ⟨seeded, hseeded⟩ := Server.exists_running_of_start hstart
  obtain ⟨accounts, hrunning⟩ := hseeded.exists_serveAll requests
  obtain ⟨accounts', hrunning', ⟨hsame, -⟩ | ⟨c, hc, hactive, hheader, htransition⟩⟩ :=
    hrunning.step r
  · exact absurd hsame hchanged
  · exact ⟨accounts, accounts', c, hrunning.holds, hrunning'.holds, hc, hactive, hheader,
      htransition.exactlyOne⟩

/-- Settings with a seed file. -/
def seededSettings : Settings :=
  { Settings.default with usersFile := "users.json" }

/-- A seed with an administrator and an agent. -/
def staffSeed : List UInt8 :=
  ("[\x7b\"user_id\":\"a1\",\"role\":\"ADMIN\"\x7d,"
    ++ "\x7b\"user_id\":\"g1\",\"role\":\"AGENT\"\x7d]").toUTF8.toList

/-- A JSON request in the name of a user. -/
def requestBy (userId method path body : String) : Request where
  method := method
  path := path
  query := ""
  headers := [("Host", "localhost"), ("X-Authenticated-User", userId),
    ("Content-Type", "application/json")]
  body := body.toUTF8.toList

/-- The administrator creates a manager who manages the agent. -/
def hiring : Request :=
  requestBy "a1" "POST" "/api/v1/users"
    ("\x7b\"user_id\":\"m1\",\"email\":\"m1@localhost\",\"role\":\"MANAGER\","
      ++ "\"assigned_users\":[\"g1\"]\x7d")

/-- The new manager changes the name of the agent. -/
def naming : Request :=
  requestBy "m1" "PATCH" "/api/v1/users/g1" "\x7b\"display_name\":\"Agent One\"\x7d"

/-- The case of a manager who was created by one request and changes an agent by the next. -/
theorem changes_authorised_manager :
    ∃ s, (Server.start seededSettings "users.json" (some staffSeed)).2 = .ok s ∧
      ((s.serveAll .standard [hiring]).serve .standard naming).1.directory ≠
        (s.serveAll .standard [hiring]).directory ∧
      ∃ accounts accounts' c, (s.serveAll .standard [hiring]).directory.Holds accounts ∧
        ((s.serveAll .standard [hiring]).serve .standard naming).1.directory.Holds accounts' ∧
        c ∈ accounts ∧ c.status = .active ∧
        naming.header? (Text.small seededSettings.identityHeader) = some c.userId ∧
        ExactlyOne (∃ u, Creation c accounts accounts' u)
          (∃ t t', Revision c accounts accounts' t t')
          (∃ t, Deletion c accounts accounts' t) := by
  have hnames : (Server.start seededSettings "users.json" (some staffSeed)).2.toOption.any
      (fun s =>
        (((s.serveAll .standard [hiring]).serve .standard naming).1.directory.users.map
          fun u => u.displayName.plain) == ["", "Agent One", ""] &&
        ((s.serveAll .standard [hiring]).directory.users.map
          fun u => u.displayName.plain) == ["", "", ""]) = true := by
    decide +kernel
  obtain ⟨s, hs, hnames⟩ := exists_ok_of_any hnames
  obtain ⟨hafter, hbefore⟩ := Bool.and_eq_true_iff.mp hnames
  have hchanged : ((s.serveAll .standard [hiring]).serve .standard naming).1.directory ≠
      (s.serveAll .standard [hiring]).directory := by
    intro hsame
    rw [hsame, eq_of_beq hbefore] at hafter
    exact absurd (eq_of_beq hafter) (by decide)
  exact ⟨s, hs, hchanged, changes_authorised hs [hiring] naming hchanged⟩

end AccessControl.Http
