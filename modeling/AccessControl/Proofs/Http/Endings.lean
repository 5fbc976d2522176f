import AccessControl.Proofs.Http.Routine

/-!
# How the routes end

What a route *never* ends with is a statement about all of its exits.  Since every endpoint is a
routine, there are three kinds of failures to look at: those that are ordinary, those of the gate,
and those of the questions.

`Handler.Ends P Q h` says that, from whatever directory the handler is run, a failure satisfies `P`
and a result satisfies `Q`.  A routine ends as its steps do, `Routine.ends`.

The first instance: once the caller is identified, no exit of any endpoint is one for requests
without a valid caller (`ends_handleWith`).
-/

namespace AccessControl.Http

open Handler

variable {α β : Type} {P : Failure → Prop} {Q : α → Prop} {a : Access} {context : Value}

/-! ## 1. Endings of routines -/

namespace Handler

/-- Every failure of the handler satisfies `P`, and every result `Q`. -/
def Ends (P : Failure → Prop) (Q : α → Prop) (h : Handler α) : Prop :=
  ∀ d, match (h.run d).outcome with
    | .error f => P f
    | .ok b => Q b

theorem Ends.mono {R : α → Prop} {h : Handler α} (hh : h.Ends P Q) (hQ : ∀ b, Q b → R b) :
    h.Ends P R := by
  intro d
  have hd := hh d
  cases houtcome : (h.run d).outcome with
  | error f =>
    rw [houtcome] at hd
    exact hd
  | ok b =>
    rw [houtcome] at hd
    exact hQ b hd

theorem ends_bind {S : β → Prop} {h : Handler α} {f : α → Handler β}
    (hfails : ∀ d, FailsWith P (h.run d).outcome)
    (hf : ∀ d b, (h.run d).outcome = .ok b → (f b).Ends P S) : (h >>= f).Ends P S := by
  intro d
  cases houtcome : (h.run d).outcome with
  | error e =>
    rw [outcome_bind_of_error houtcome]
    exact hfails d e houtcome
  | ok b =>
    rw [outcome_bind_of_ok houtcome]
    exact hf d b houtcome _

theorem failsWith_ofRun {r : Run α} (hr : FailsWith (fun e => P (.fault e)) r.outcome)
    (d : Directory) : FailsWith P ((ofRun r).run d).outcome := by
  rw [outcome_ofRun]
  exact failsWith_mapError hr

end Handler

/-- **A routine ends as its steps do.** -/
theorem Routine.ends {K : Value → Query → Prop} {h : Handler α} (hh : Routine a K Q h)
    (hordinary : ∀ f, f.Ordinary → P f)
    (hidentify : ∀ d, FailsWith P (a.authenticated.run d).outcome)
    (hquestion : ∀ context q, a.caller = .resolved context →
      ∀ d, FailsWith P ((a.decide context q).run d).outcome) : h.Ends P Q := by
  induction hh with
  | result b hb => exact fun _ => hb
  | failure f hf => exact fun _ => hordinary f hf
  | emit events next _ _ ih => exact fun _ => ih _
  | call c next _ ih => exact fun _ => ih _ _
  | identify next _ ih =>
    exact ends_bind hidentify fun d context hcontext =>
      ih context (Access.authenticated_ok hcontext).1
  | question context q next hcaller _ _ ih =>
    exact ends_bind (hquestion context q hcaller) fun d answer hanswer =>
      ih answer (ok_of_ofRun hanswer)

/-- A response that an endpoint gives by itself is that of a request that has been carried out. -/
theorem Endpoint.succeeded_of_ok {published : Option Registry} {r : Request} {e : Endpoint}
    {d : Directory} {response : Response}
    (h : ((e.handle published a r).run d).outcome = .ok response) : response.Succeeded := by
  have hends : (e.handle published a r).Ends (fun _ => True) Response.Succeeded :=
    (Endpoint.routine published a r e).ends (fun _ _ => trivial) (fun _ _ _ => trivial)
      fun _ _ _ _ _ _ => trivial
  have hd := hends d
  rw [h] at hd
  exact hd

/-! ## 2. Failures of an identified caller -/

/-- The failure is not one for requests without a valid caller. -/
def Failure.Authenticated (f : Failure) : Prop :=
  f.status ≠ 401

theorem Failure.authenticated_of_status {f : Failure} {n : Nat} (hstatus : f.status = n)
    (hn : n ≠ 401) : f.Authenticated := by
  rw [Authenticated, hstatus]
  exact hn

/-- The caller is identified: the context is that of the caller and counts.  The sink works, and
denials are refused as such. -/
structure Access.Identified (a : Access) (context : Value) : Prop where
  caller : a.caller = .resolved context
  accepts : a.registry.Accepts a.interpretation context
  sink : a.registry.SinkWorks a.interpretation
  refusal : ∀ record,
    (Failure.fault (a.interpretation.refuse a.registry.authzRefusal record)).Authenticated

namespace Access

variable (h : a.Identified context)

include h

/-- The gate is open for a caller who is identified. -/
theorem failsWith_authenticated (d : Directory) :
    FailsWith Failure.Authenticated (a.authenticated.run d).outcome := by
  rw [outcome_authenticated_of_accepts h.caller h.accepts]
  exact failsWith_ok _

/-- A question about a caller who is identified fails for other reasons. -/
theorem failsWith_decide (q : Query) (d : Directory) :
    FailsWith Failure.Authenticated ((a.decide context q).run d).outcome := by
  refine failsWith_ofRun (fun e he => ?_) d
  rcases decide_error h.sink h.accepts e he with htechnical | ⟨record, rfl⟩
  · exact (Failure.ordinary_of_technical htechnical).1
  · exact h.refusal record

end Access

/-- **No exit of any endpoint** is one for requests without a valid caller, once the caller is
identified. -/
theorem Endpoint.ends_handleWith (h : a.Identified context) (published : Option Registry)
    (r : Request) (body : Option Value) (e : Endpoint) :
    (e.handleWith published a r body).Ends Failure.Authenticated Response.Succeeded := by
  have hroutine : Routine a (fun _ _ => True) Response.Succeeded
      (e.handleWith published a r body) :=
    Endpoint.routine_handleWith (fun _ _ _ => trivial) (fun _ _ => trivial)
      (fun _ _ _ => trivial) published r body
  refine hroutine.ends (fun f hf => hf.1) (Access.failsWith_authenticated h) ?_
  intro context' q hcaller
  rw [h.caller] at hcaller
  cases hcaller
  exact Access.failsWith_decide h q

end AccessControl.Http
