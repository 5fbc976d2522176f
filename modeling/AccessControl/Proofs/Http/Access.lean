import AccessControl.Http.RegistryRoutes
import AccessControl.Http.UserRoutes
import AccessControl.Proofs.Directory.Account
import AccessControl.Proofs.Http.Quiet

/-!
# Callers and their access

Before a route does anything it finds out who is calling and whether this caller may go on.  All
of this is quiet, and it is what a change of the directory is traced back to.

* `authenticated_ok`, `permitted_ok`: a route that goes on does so with the caller's context, and
  the context counts.
* `may_ok`: a route that goes on after asking about a user has been allowed to.
* `run_resolve`: who is calling is found among the accounts by the id that is forwarded.
-/

namespace AccessControl.Http

open Handler

variable {d : Directory} {a : Access} {accounts : List Account} {settings : Settings}
  {r : Request} {c : Account}

/-- Nothing that the sink of the engine does reaches the directory. -/
def Access.Harmless (a : Access) : Prop :=
  a.registry.SinkHarmless a.interpretation

/-- The engine has allowed the caller's context an action on a user. -/
def Access.Allowed (a : Access) (context : Value) (action : UserAction) (u : User) : Prop :=
  ∃ answer, ((Query.instanceOf Rulebook.userMember action.member u.toValue).decide
    a.interpretation a.registry context).outcome = .ok answer

/-! ## 1. The engine inside a handler -/

theorem outcome_ofRun {α : Type} (r : Run α) :
    ((ofRun r).run d).outcome = r.outcome.mapError Failure.fault := by
  rw [run_ofRun]

/-- A result of the engine inside a handler is one of the engine. -/
theorem ok_of_ofRun {α : Type} {r : Run α} {answer : α}
    (h : ((ofRun r).run d).outcome = .ok answer) : r.outcome = .ok answer := by
  rw [outcome_ofRun] at h
  exact mapError_eq_ok_iff.mp h

namespace Access

theorem quiet_turnAway (ha : a.Harmless) (message resource : String) :
    (a.turnAway message resource).Quiet :=
  quiet_ofRun (harmless_of_mem_turnAway ha _ _ _)

theorem quiet_authenticated (ha : a.Harmless) : a.authenticated.Quiet := by
  rw [authenticated]
  split
  · exact quiet_turnAway ha _ _
  · split
    · exact quiet_turnAway ha _ _
    · exact quiet_ofRun (harmless_of_mem_authenticate ha)

theorem quiet_decide (ha : a.Harmless) (context : Value) (q : Query) : (a.decide context q).Quiet :=
  quiet_ofRun (harmless_of_mem_decide ha)

theorem quiet_permitted (ha : a.Harmless) (action : UserAction) : (a.permitted action).Quiet :=
  quiet_bind (quiet_authenticated ha) fun _ =>
    quiet_bind (quiet_decide ha _ _) fun _ => quiet_pure _

theorem quiet_may (ha : a.Harmless) (context : Value) (action : UserAction) (u : User) :
    (a.may context action u).Quiet :=
  quiet_bind (quiet_decide ha _ _) fun _ => quiet_pure _

/-- A request that is turned away does not go on. -/
theorem turnAway_not_ok {message resource : String} {context : Value} :
    ((a.turnAway message resource).run d).outcome ≠ .ok context :=
  fun h => turnAway_ne_ok _ _ _ context (ok_of_ofRun h)

/-- A caller with a context is authenticated by the engine. -/
theorem authenticated_of_resolved {context : Value} (hcaller : a.caller = .resolved context)
    (hbound : context.isNull = false) :
    a.authenticated = ofRun (authenticate a.interpretation a.registry context) := by
  rw [authenticated, hcaller]
  simp only [hbound]
  rfl

/-- **Who is authenticated** is the caller, and the caller's context counts. -/
theorem authenticated_ok {context : Value} (h : (a.authenticated.run d).outcome = .ok context) :
    a.caller = .resolved context ∧ a.registry.Accepts a.interpretation context := by
  rw [authenticated] at h
  split at h
  · exact absurd h turnAway_not_ok
  · rename_i given hcaller
    split at h
    · exact absurd h turnAway_not_ok
    · obtain ⟨rfl, haccepts⟩ := authenticate_ok_iff.mp (ok_of_ofRun h)
      exact ⟨hcaller, haccepts⟩

/-- A caller whose context counts is authenticated. -/
theorem outcome_authenticated_of_accepts {context : Value} (hcaller : a.caller = .resolved context)
    (haccepts : a.registry.Accepts a.interpretation context) (d : Directory) :
    (a.authenticated.run d).outcome = .ok context := by
  have hok : (authenticate a.interpretation a.registry context).outcome = .ok context :=
    authenticate_ok_iff.mpr ⟨rfl, haccepts⟩
  rw [authenticated_of_resolved hcaller haccepts.bound, outcome_ofRun, hok]
  rfl

/-- Who is permitted an action is the caller, and the caller's context counts. -/
theorem permitted_ok (ha : a.Harmless) {action : UserAction} {context : Value}
    (h : ((a.permitted action).run d).outcome = .ok context) :
    a.caller = .resolved context ∧ a.registry.Accepts a.interpretation context := by
  obtain ⟨given, hgiven, h⟩ := (quiet_authenticated ha).exists_of_ok h
  obtain ⟨answer, -, h⟩ := (quiet_decide ha _ _).exists_of_ok h
  cases h
  exact authenticated_ok hgiven

/-- A caller whose context counts and whose role is granted the action is permitted it, after
both have been looked at. -/
theorem run_permitted (d : Directory) {action : UserAction} {context : Value} {answer : Answer}
    (hcaller : a.caller = .resolved context)
    (haccepts : a.registry.Accepts a.interpretation context)
    (hpermission : ((Query.permission Rulebook.userMember action.member []).decide
      a.interpretation a.registry context).outcome = .ok answer) :
    (a.permitted action).run d =
      ⟨afterEvents d ((authenticate a.interpretation a.registry context).events ++
          ((Query.permission Rulebook.userMember action.member []).decide a.interpretation
            a.registry context).events),
        (authenticate a.interpretation a.registry context).events ++
          ((Query.permission Rulebook.userMember action.member []).decide a.interpretation
            a.registry context).events, .ok context⟩ := by
  have hauthenticated : (authenticate a.interpretation a.registry context).outcome = .ok context :=
    authenticate_ok_iff.mpr ⟨rfl, haccepts⟩
  rw [permitted, authenticated_of_resolved hcaller haccepts.bound, run_ofRun_bind hauthenticated]
  simp only [Access.decide]
  rw [run_ofRun_bind hpermission, afterEvents_append]
  simp only [Pure.pure, Handler.pure, run_done, List.append_nil]

/-- A route that goes on after asking about a user has been allowed to. -/
theorem may_ok (ha : a.Harmless) {context : Value} {action : UserAction} {u : User}
    (h : ((a.may context action u).run d).outcome = .ok ()) : a.Allowed context action u := by
  obtain ⟨answer, hanswer, -⟩ := (quiet_decide ha _ _).exists_of_ok h
  exact ⟨answer, ok_of_ofRun hanswer⟩

end Access

/-! ## 2. Who is calling -/

/-- The account that the request is made in the name of, if there is one. -/
def Request.caller? (r : Request) (settings : Settings) (accounts : List Account) :
    Option Account :=
  (r.header? (Text.small settings.identityHeader)).bind fun id =>
    if id = "" then none else accounts.find? fun a => a.userId == id

/-- The context of a request in the name of an account, or of nobody. -/
def contextOf (caller : Option Account) : Value :=
  (caller.map Account.context).getD .null

theorem Request.caller?_eq_some_iff (hd : d.Holds accounts) :
    r.caller? settings accounts = some c ↔
      c ∈ accounts ∧ c.userId ≠ "" ∧
        r.header? (Text.small settings.identityHeader) = some c.userId := by
  rw [caller?, Option.bind_eq_some_iff]
  constructor
  · rintro ⟨id, hheader, hfound⟩
    split at hfound
    · cases hfound
    · rename_i hid
      obtain ⟨hmem, rfl⟩ := Directory.mem_of_find?_userId hfound
      exact ⟨hmem, hid, hheader⟩
  · rintro ⟨hmem, hid, hheader⟩
    refine ⟨c.userId, hheader, ?_⟩
    rw [if_neg hid, hd.find?_userId hmem]

/-- **Who is calling** is found among the accounts by the id that is forwarded, and nothing else
happens. -/
theorem Caller.run_resolve (hd : d.Holds accounts) :
    (Caller.resolve settings (some (.resolver .directory)) r).run d =
      ⟨d, [], .ok (.resolved (contextOf (r.caller? settings accounts)))⟩ := by
  rw [Caller.resolve, Caller.forwarded, Request.caller?]
  cases hheader : r.header? (Text.small settings.identityHeader) with
  | none => rfl
  | some id =>
    by_cases hid : id = ""
    · subst hid
      rfl
    · have hempty : ¬ id.isEmpty = true := by simpa using hid
      have hperform : d.perform (.get (.text id)) = (d, d.get (.text id)) := rfl
      simp only [Option.getD_some, if_neg hempty, Option.bind_some, if_neg hid]
      rw [run_bind_of_ok (by rw [run_tryCall]), run_tryCall, hperform,
        Directory.get_of_holds hd hid]
      cases accounts.find? fun a => a.userId == id with
      | none => rfl
      | some a =>
        simp only [Option.map_some, Account.toContext_user]
        rfl

end AccessControl.Http
