import AccessControl.Proofs.Http.Endings
import AccessControl.Proofs.Http.Transition

/-!
# What a denial tells the client

The record of a denial says why: which check did not accept the context, which level failed and
how, which role has no grant.  The client is to learn none of this.  All responses with the status
401 have one and the same body, and so have all responses with the status 403.

## Where it could fail

A response with one of these statuses can be made in two ways.  The refusals of the engine make
errors of their own, which the server translates; those of the application make errors with a
status, whose detail goes into the response as it is.  A refusal that put the message of the record
into the detail would tell all of it, and there is such a refusal in the library
(`Refusal.httpStatus`).  So it matters that the registry has one of the four others,
`Registry.RefusesPlainly`.

Then there are all the responses that are no denials.  None of them has one of the two statuses by
accident: this is `Failure.Ordinary` for the failures of the routes, and a look at each response
that is made outside the routes.

## Two servers

`denials_alike` compares any two responses: of two servers with different registries, directories
and predicates, to different requests.  It follows from what is said about one response,
`plain_serve`, since this leaves no choice for its body.
-/

namespace AccessControl

namespace Http

open Handler

/-! ## 1. Plain responses -/

/-- A denial in the response says that it is one, and nothing else. -/
structure Response.Plain (response : Response) : Prop where
  unauthenticated : response.status = 401 →
    response.content = .json (envelope "not_authenticated" "Not authenticated." .null)
  unauthorized : response.status = 403 →
    response.content = .json (envelope "not_authorized" "Not authorized." .null)

/-- The response to the failure, if there is one, is plain. -/
def Failure.Plain (f : Failure) : Prop :=
  ∀ response, f.response? = some response → response.Plain

/-- A response with another status is plain. -/
theorem Response.plain_of_status {response : Response} {n : Nat} (hstatus : response.status = n)
    (hn : n ≠ 401 ∧ n ≠ 403) : response.Plain := by
  subst hstatus
  exact ⟨fun h => absurd h hn.1, fun h => absurd h hn.2⟩

theorem Response.Succeeded.plain {response : Response} (h : response.Succeeded) :
    response.Plain := by
  rw [Response.Succeeded] at h
  exact Response.plain_of_status rfl ⟨by omega, by omega⟩

/-- The headers for an origin change neither the status nor the body. -/
theorem Response.Plain.forOrigin {response : Response} (h : response.Plain) (settings : Settings)
    (r : Request) : (response.forOrigin settings r).Plain :=
  ⟨h.unauthenticated, h.unauthorized⟩

theorem Failure.Ordinary.plain {f : Failure} (h : f.Ordinary) : f.Plain := by
  intro response hresponse
  have hstatus : f.status = response.status := by
    rw [status, hresponse]
    rfl
  rw [Ordinary, hstatus] at h
  exact Response.plain_of_status rfl h

/-- Whoever refuses a request without a valid context, the engine or the application, the response
is the same. -/
theorem Failure.plain_unauthenticated (record : Audit) :
    (Failure.fault (.unauthenticated record)).Plain ∧
      (Failure.fault (.status (.unauthenticated record))).Plain := by
  refine ⟨?_, ?_⟩
  · rintro _ ⟨⟩
    exact ⟨fun _ => rfl, fun h => absurd h (by decide : 401 ≠ 403)⟩
  · rintro _ ⟨⟩
    exact ⟨fun _ => rfl, fun h => absurd h (by decide : 401 ≠ 403)⟩

/-- Whoever refuses a denial, the response is the same. -/
theorem Failure.plain_unauthorized (record : Audit) :
    (Failure.fault (.unauthorized record)).Plain ∧
      (Failure.fault (.status (.unauthorized record))).Plain := by
  refine ⟨?_, ?_⟩
  · rintro _ ⟨⟩
    exact ⟨fun h => absurd h (by decide : 403 ≠ 401), fun _ => rfl⟩
  · rintro _ ⟨⟩
    exact ⟨fun h => absurd h (by decide : 403 ≠ 401), fun _ => rfl⟩

end Http

/-! ## 2. Registries that refuse plainly -/

/-- The refusals are those of the engine or those of the application, which do what their names
say, and the sink does not fail with a denial of its own.  Nothing is said about predicates. -/
structure Registry.RefusesPlainly (r : Registry) (i : Interpretation) : Prop where
  authn : r.authnRefusal = .refusal .unauthenticated ∨
    r.authnRefusal = .refusal .httpUnauthenticated
  authz : r.authzRefusal = .refusal .unauthorized ∨ r.authzRefusal = .refusal .httpUnauthorized
  refusals : ∀ x record, i.refuse (.refusal x) record = Interpretation.refusalFault x record
  sink : ∀ record, FailsWith (fun e => (Http.Failure.fault e).Ordinary)
    (i.deliver r.sink record).outcome

namespace Registry

variable {r : Registry} {i : Interpretation}

/-- Every error of a decision is one to which there is a plain response, or none at all. -/
theorem RefusesPlainly.plain_of_origin (h : r.RefusesPlainly i) {e : Fault}
    (he : e.Origin i r) : (Http.Failure.fault e).Plain := by
  cases he with
  | technical _ htechnical => exact (Http.Failure.ordinary_of_technical htechnical).plain
  | sink _ record hfailed => exact (h.sink record e hfailed).plain
  | unauthenticated record =>
    rcases h.authn with heq | heq
    · rw [heq, h.refusals]
      exact (Http.Failure.plain_unauthenticated record).1
    · rw [heq, h.refusals]
      exact (Http.Failure.plain_unauthenticated record).2
  | unauthorized record =>
    rcases h.authz with heq | heq
    · rw [heq, h.refusals]
      exact (Http.Failure.plain_unauthorized record).1
    · rw [heq, h.refusals]
      exact (Http.Failure.plain_unauthorized record).2

end Registry

namespace Interpretation

/-- The error is no denial: the client does not get to see it. -/
theorem ordinary_raised (kind : String) (message : Value) :
    (Http.Failure.fault (.raised kind message)).Ordinary :=
  Http.Failure.ordinary_of_status rfl (by decide : 500 ≠ 401 ∧ 500 ≠ 403)

theorem ordinary_misuse (m : Misuse) : (Http.Failure.fault (.misuse m)).Ordinary :=
  Http.Failure.ordinary_of_technical trivial

/-- Reading a field never fails with a denial. -/
theorem ordinary_contextField (v : Value) (key : String) :
    FailsWith (fun e => (Http.Failure.fault e).Ordinary) (Expr.contextField v key) :=
  fun e he => Http.Failure.ordinary_of_technical (technical_contextField v key e he)

/-- An expression never fails with a denial. -/
theorem ordinary_evaluate (context resource : Value) : (expr : Expr) →
    FailsWith (fun e => (Http.Failure.fault e).Ordinary) (expr.evaluate context resource)
  | .const v => failsWith_ok v
  | .context key => ordinary_contextField context key
  | .resource key => by
    rw [Expr.evaluate, Expr.resourceField]
    split
    · split
      · exact failsWith_ok _
      · exact failsWith_error (ordinary_raised _ _)
    · exact ordinary_contextField resource key
  | .fail kind => failsWith_error (ordinary_raised _ _)
  | .not e => failsWith_bind (ordinary_evaluate context resource e) fun _ => failsWith_ok _
  | .eq a b =>
    failsWith_bind (ordinary_evaluate context resource a) fun _ =>
      failsWith_bind (ordinary_evaluate context resource b) fun _ => failsWith_ok _
  | .le a b => by
    refine failsWith_bind (ordinary_evaluate context resource a) fun v => ?_
    refine failsWith_bind (ordinary_evaluate context resource b) fun w => ?_
    cases v.le? w with
    | some answer => exact failsWith_ok _
    | none => exact failsWith_error (ordinary_misuse _)
  | .mem a b => by
    refine failsWith_bind (ordinary_evaluate context resource a) fun v => ?_
    refine failsWith_bind (ordinary_evaluate context resource b) fun w => ?_
    cases Value.contains? v w with
    | some answer => exact failsWith_ok _
    | none => exact failsWith_error (ordinary_misuse _)

/-- A function that is called never fails with a denial. -/
theorem ordinary_standardEvaluate (f : Callable) (arguments : List Value) :
    FailsWith (fun e => (Http.Failure.fault e).Ordinary) (standardEvaluate f arguments) := by
  have hunsuitable : ∀ g, FailsWith (fun e => (Http.Failure.fault e).Ordinary)
      (.error (unsuitable g) : Except Fault Value) := fun _ => failsWith_error (ordinary_misuse _)
  rw [standardEvaluate.eq_def]
  split
  · exact ordinary_evaluate _ _ _
  · exact ordinary_evaluate _ _ _
  · split
    · exact ordinary_evaluate _ _ _
    · exact hunsuitable _
  · split
    · exact ordinary_evaluate _ _ _
    · exact hunsuitable _
  · split
    · exact failsWith_ok _
    · exact failsWith_error (ordinary_raised _ _)
  · split
    · exact failsWith_ok _
    · exact hunsuitable _
  · exact hunsuitable _

/-- A sink never fails with a denial. -/
theorem ordinary_standardDeliver (f : Callable) (record : Audit) :
    FailsWith (fun e => (Http.Failure.fault e).Ordinary) (standardDeliver f record).outcome := by
  rw [standardDeliver.eq_def]
  split
  · rename_i sink
    cases sink with
    | offline => exact failsWith_error (ordinary_raised _ _)
    | evicting userId =>
      rw [deliverTo]
      split
      · exact failsWith_ok _
      · exact failsWith_ok _
    | _ => exact failsWith_ok _
  · exact failsWith_ok _
  · exact failsWith_error (ordinary_misuse _)
  · split
    · exact failsWith_ok _
    · rename_i e he
      exact failsWith_error (ordinary_standardEvaluate _ _ e he)

end Interpretation

/-- With functions that do what they say, only the refusals matter. -/
theorem Registry.refusesPlainly_standard {r : Registry}
    (hauthn : r.authnRefusal = .refusal .unauthenticated ∨
      r.authnRefusal = .refusal .httpUnauthenticated)
    (hauthz : r.authzRefusal = .refusal .unauthorized ∨
      r.authzRefusal = .refusal .httpUnauthorized) : r.RefusesPlainly .standard where
  authn := hauthn
  authz := hauthz
  refusals := fun _ _ => rfl
  sink := fun record => Interpretation.ordinary_standardDeliver r.sink record

namespace Http

open Handler

variable {a : Access} {i : Interpretation} {s : Server}

/-! ## 3. One response -/

/-- A question fails plainly. -/
theorem Access.plain_decide (h : a.registry.RefusesPlainly a.interpretation) (context : Value)
    (q : Query) (d : Directory) : FailsWith Failure.Plain ((a.decide context q).run d).outcome :=
  failsWith_ofRun (fun e he => h.plain_of_origin (origin_decide q _ _ context e he)) d

/-- The gate fails plainly. -/
theorem Access.plain_authenticated (h : a.registry.RefusesPlainly a.interpretation)
    (d : Directory) : FailsWith Failure.Plain (a.authenticated.run d).outcome := by
  rw [authenticated]
  split
  · exact failsWith_ofRun (fun e he => h.plain_of_origin (origin_turnAway _ _ _ e he)) d
  · split
    · exact failsWith_ofRun (fun e he => h.plain_of_origin (origin_turnAway _ _ _ e he)) d
    · exact failsWith_ofRun (fun e he => h.plain_of_origin (origin_authenticate e he)) d

/-- **Every endpoint** ends plainly. -/
theorem Endpoint.plain_handle (h : a.registry.RefusesPlainly a.interpretation)
    (published : Option Registry) (r : Request) (e : Endpoint) :
    (e.handle published a r).Ends Failure.Plain Response.Plain := by
  refine ((Endpoint.routine published a r e).ends (fun f hf => hf.plain)
    (Access.plain_authenticated h) fun context q _ => Access.plain_decide h context q).mono ?_
  exact fun response hresponse => hresponse.plain

/-! ## 4. All responses of a server -/

/-- Finding the caller never fails: a resolver that fails leaves a caller who is not known. -/
theorem Caller.exists_resolved (settings : Settings) (resolver : Option Callable) (r : Request)
    (d : Directory) :
    ∃ caller, ((Caller.resolve settings resolver r).run d).outcome = .ok caller := by
  have hfailed : ∀ kind, ((Caller.failed r kind).run d).outcome = .ok .unresolved := fun _ => rfl
  rw [Caller.resolve.eq_def]
  split
  · exact ⟨_, rfl⟩
  · rw [Caller.forwarded]
    split
    · exact ⟨_, rfl⟩
    · rw [outcome_bind_of_ok (congrArg Result.outcome (run_tryCall d _)), run_tryCall]
      split
      · exact ⟨_, hfailed _⟩
      · exact ⟨_, rfl⟩
      · split
        · exact ⟨_, rfl⟩
        · exact ⟨_, hfailed _⟩
  · exact ⟨_, hfailed _⟩
  · exact ⟨_, rfl⟩
  · exact ⟨_, hfailed _⟩

/-- The response to a request that leads nowhere is plain. -/
theorem Endpoint.plain_of_route {r : Request} {response : Response}
    (h : Endpoint.route r = .error response) : response.Plain := by
  rw [Endpoint.route] at h
  split at h
  · dsimp only at h
    split at h
    · cases h
      exact Response.plain_of_status rfl (by decide : 307 ≠ 401 ∧ 307 ≠ 403)
    · cases h
      exact Response.plain_of_status rfl (by decide : 404 ≠ 401 ∧ 404 ≠ 403)
  · split at h
    · cases h
    · cases h
      exact Response.plain_of_status rfl (by decide : 405 ≠ 401 ∧ 405 ≠ 403)

namespace Server

theorem plain_dispatch (h : s.registry.RefusesPlainly i) (r : Request) :
    (s.dispatch i r).Ends Failure.Plain Response.Plain := by
  refine ends_bind (fun d e he => ?_) fun d caller _ => ?_
  · obtain ⟨caller, hcaller⟩ :=
      Caller.exists_resolved s.settings (s.publishedRegistry.bind Registry.resolver) r d
    rw [hcaller] at he
    cases he
  · split
    · rename_i response hroute
      exact fun _ => Endpoint.plain_of_route hroute
    · exact Endpoint.plain_handle (a := ⟨i, s.registry, caller⟩) h _ _ _

/-- **Every response is plain**, whatever the request, the directory and the predicates. -/
theorem plain_serve (h : s.registry.RefusesPlainly i) (r : Request) :
    (s.serve i r).2.response.Plain := by
  by_cases hadmits : s.Admits r
  · have hends := plain_dispatch h r s.directory
    rw [serve_eq_of_admits hadmits]
    cases houtcome : ((s.dispatch i r).run s.directory).outcome with
    | ok response =>
      rw [houtcome] at hends
      exact hends.forOrigin _ _
    | error f =>
      rw [houtcome] at hends
      rw [answerTo]
      cases hresponse : f.response? with
      | some response => exact (hends response hresponse).forOrigin _ _
      | none => exact Response.plain_of_status rfl (by decide : 500 ≠ 401 ∧ 500 ≠ 403)
  · rcases (serve_of_not_admits hadmits i).2.1 with hstatus | hstatus
    · exact Response.plain_of_status hstatus (by decide : 200 ≠ 401 ∧ 200 ≠ 403)
    · exact Response.plain_of_status hstatus (by decide : 400 ≠ 401 ∧ 400 ≠ 403)

end Server

/-- **Denials tell nothing.**  Take any two servers whose registries refuse with the refusals of
the application or with those of the engine, whatever their directories, global checks and levels
are and whatever their predicates do, and one request to each.  If both responses have the status
401 their bodies are the same, and so are they if both have the status 403. -/
theorem denials_alike {s₁ s₂ : Server} {i₁ i₂ : Interpretation}
    (h₁ : s₁.registry.RefusesPlainly i₁) (h₂ : s₂.registry.RefusesPlainly i₂) (r₁ r₂ : Request) :
    ((s₁.serve i₁ r₁).2.response.status = 401 → (s₂.serve i₂ r₂).2.response.status = 401 →
      (s₁.serve i₁ r₁).2.response.content.body = (s₂.serve i₂ r₂).2.response.content.body) ∧
    ((s₁.serve i₁ r₁).2.response.status = 403 → (s₂.serve i₂ r₂).2.response.status = 403 →
      (s₁.serve i₁ r₁).2.response.content.body = (s₂.serve i₂ r₂).2.response.content.body) := by
  have hplain₁ := Server.plain_serve h₁ r₁
  have hplain₂ := Server.plain_serve h₂ r₂
  constructor
  · intro hstatus₁ hstatus₂
    rw [hplain₁.unauthenticated hstatus₁, hplain₂.unauthenticated hstatus₂]
  · intro hstatus₁ hstatus₂
    rw [hplain₁.unauthorized hstatus₁, hplain₂.unauthorized hstatus₂]

/-- A super admin, an administrator, and an agent who is suspended. -/
def divided : List Account :=
  [⟨"s1", .text "", .superAdmin, 0, .active, .text "", []⟩,
    ⟨"a1", .text "", .admin, 1, .active, .text "", []⟩,
    ⟨"g1", .text "", .agent, 3, .suspended, .text "", []⟩]

/-- A server for these accounts, with the given refusals. -/
def dividedServer (authn authz : Refusal) : Server where
  settings := Settings.default
  directory := ⟨divided.map Account.user⟩
  registry := { Rulebook.registry true with
    authnRefusal := .refusal authn
    authzRefusal := .refusal authz }

/-- The case of one server with the refusals of the application and another with those of the
engine: the agent asks the one, and somebody who gives no name asks the other; the administrator
wants to delete the super admin of the one, and to try out an action that there is none of on the
other. -/
theorem denials_alike_divided :
    let application := dividedServer .httpUnauthenticated .httpUnauthorized
    let engine := dividedServer .unauthenticated .unauthorized
    application.registry.RefusesPlainly .standard ∧ engine.registry.RefusesPlainly .standard ∧
    (∃ suspended anonymous,
      (application.serve .standard suspended).2.response.status = 401 ∧
      (engine.serve .standard anonymous).2.response.status = 401 ∧
      (application.serve .standard suspended).2.response.content.body =
        (engine.serve .standard anonymous).2.response.content.body) ∧
    ∃ deleting trying,
      (application.serve .standard deleting).2.response.status = 403 ∧
      (engine.serve .standard trying).2.response.status = 403 ∧
      (application.serve .standard deleting).2.response.content.body =
        (engine.serve .standard trying).2.response.content.body := by
  intro application engine
  have happlication : application.registry.RefusesPlainly .standard :=
    Registry.refusesPlainly_standard (Or.inr rfl) (Or.inr rfl)
  have hengine : engine.registry.RefusesPlainly .standard :=
    Registry.refusesPlainly_standard (Or.inl rfl) (Or.inl rfl)
  have hsuspended : (application.serve .standard
      (requestBy "g1" "GET" "/api/v1/users" "")).2.response.status = 401 := by
    decide +kernel
  have hanonymous : (engine.serve .standard
      (requestBy "" "GET" "/api/v1/users" "")).2.response.status = 401 := by
    decide +kernel
  have hdeleting : (application.serve .standard
      (requestBy "a1" "DELETE" "/api/v1/users/s1" "")).2.response.status = 403 := by
    decide +kernel
  have htrying : (engine.serve .standard
      (requestBy "a1" "GET" "/api/v1/authz/permissions/User/EXPORT" "")).2.response.status =
        403 := by
    decide +kernel
  exact ⟨happlication, hengine,
    ⟨_, _, hsuspended, hanonymous,
      (denials_alike happlication hengine _ _).1 hsuspended hanonymous⟩,
    _, _, hdeleting, htrying, (denials_alike happlication hengine _ _).2 hdeleting htrying⟩

end Http

end AccessControl
