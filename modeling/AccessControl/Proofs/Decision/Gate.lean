import AccessControl.Proofs.Decision.Events
import AccessControl.Proofs.Decision.Faithfulness
import AccessControl.Proofs.Decision.Isolation

/-!
# The context comes first

Five calls of the service are about the principal of the current context: the four questions, and
the one that only asks whether the context counts.  All of them begin in the same way.  There must
be a context, it must have a role, and the checks must accept it; and if it does not count, the call
ends there.  This module says what "first" comes to, `context_comes_first`.

## A conjunction that is evaluated from the left

That a context counts is a conjunction (`Registry.Accepts`), so the order of the checks does not
matter for it.  It does matter for what is done: the checks are called one by one, up to the first
that does not accept, and none if there is no context or no role (`screen_calls`).  Hence two
registries with the same checks in different orders agree on which contexts count, and may yet give
different reasons.

## What a call that is turned away depends on

After the checks nothing is called but the sink and the refusal for requests without a valid
context (`ServiceCall.turnAway`).  So what is asked is seen in the record only: its message and its
user id are the same for all calls, since they are made of the reason and the context.  A level is a
predicate that is called with two arguments, a context and an instance, and a check is one that is
called with one.  Therefore the run is the same if everything that is called with two arguments were
to do something else, and if the registry had other roles and other resources
(`ServiceCall.run_congr`).
-/

namespace AccessControl

variable {i j : Interpretation} {r s : Registry} {context : Value} {call : ServiceCall}

/-- The check is the last one to be called, if it is called at all: what it returns counts as false,
or it raises. -/
def Interpretation.stopsAt (i : Interpretation) (context : Value) (c : GlobalCheck) : Bool :=
  match i.evaluate c.fn [context] with
  | .ok v => !v.truthy
  | .error _ => true

namespace ServiceCall

/-- If the call has a filter, its levels can be gone through. -/
def Readable : ServiceCall → Prop
  | hasPermission _ _ filter => ∃ requested, requestedLevels filter = .ok requested
  | query _ => True
  | authenticate => True

/-- What a call does when the context counts: it answers its question, or returns the context. -/
def proceed (i : Interpretation) (r : Registry) (context : Value) : ServiceCall → Run ServiceReply
  | hasPermission resource action filter =>
    match requestedLevels filter with
    | .error e => Run.fail e
    | .ok requested => answer (.permission resource action requested)
  | query q => answer q
  | authenticate => Run.pure (.authenticated context)
where
  /-- Answers a question from the registry. -/
  answer (q : Query) : Run ServiceReply :=
    (q.find i r context ((contextRole? context).getD .null)).bind fun f =>
      (f.conclude i r context q).bind fun a => Run.pure (.answered a)

/-- The record of a call when the context does not count. -/
def rejection (why : Rejection) (context : Value) : ServiceCall → Audit
  | hasPermission resource action _ =>
    why.audit (.permission action.name) resource.name context
  | query q => why.audit q.bareSubject q.resource context
  | authenticate =>
    ⟨.request, .text "authentication", .text (contextUserId context), .deny, .text why.message⟩

/-- What a call does when the context does not count: the record is given to the sink, and the
request is refused. -/
def turnAway (i : Interpretation) (r : Registry) (a : Audit) : Run ServiceReply :=
  (deliver i r a).bind fun _ => refuse i r.authnRefusal a

end ServiceCall

/-! ## 1. The checks that are called -/

theorem runChecks_calls (i : Interpretation) (context : Value) (checks : List GlobalCheck) :
    (runChecks i context checks).1.filterMap Event.callable? =
      (checks.take (checks.findIdx (i.stopsAt context) + 1)).map GlobalCheck.fn := by
  induction checks with
  | nil => rfl
  | cons c rest ih =>
    rw [List.findIdx_cons]
    cases hc : i.evaluate c.fn [context] with
    | error e =>
      have hstops : i.stopsAt context c = true := by rw [Interpretation.stopsAt, hc]
      simp only [runChecks, hc, hstops]
      rfl
    | ok v =>
      have hstops : i.stopsAt context c = !v.truthy := by rw [Interpretation.stopsAt, hc]
      cases hv : v.truthy with
      | false =>
        simp only [runChecks, hc, hstops, hv]
        rfl
      | true =>
        simp only [runChecks, hc, hstops, hv, if_true, Bool.not_true, cond_false]
        rw [List.take_succ_cons, List.map_cons, ← ih]
        rfl

/-- **The checks that are called** are those up to the first that does not accept, in the order of
registration; there must be a context with a role for any of them to be called. -/
theorem screen_calls : (screen i r context).1.filterMap Event.callable? =
    if context.isNull || (contextRole? context).isNone then []
    else (r.checks.take (r.checks.findIdx (i.stopsAt context) + 1)).map GlobalCheck.fn := by
  rw [screen]
  by_cases hnull : context.isNull = true
  · rw [if_pos hnull, hnull, Bool.true_or, if_pos rfl]
    rfl
  · rw [if_neg hnull, Bool.eq_false_iff.mpr hnull, Bool.false_or]
    by_cases hrole : (contextRole? context).isNone = true
    · rw [if_pos hrole, if_pos hrole]
      rfl
    · rw [if_neg hrole, if_neg hrole]
      exact runChecks_calls i context r.checks

/-- The order of the checks does not matter for whether a context counts. -/
theorem accepts_of_perm (h : s.checks.Perm r.checks) : s.Accepts i context ↔ r.Accepts i context :=
  ⟨fun hs => ⟨hs.bound, hs.hasRole, fun c hc => hs.passes c (h.mem_iff.mpr hc)⟩,
    fun hr => ⟨hr.bound, hr.hasRole, fun c hc => hr.passes c (h.mem_iff.mp hc)⟩⟩

/-! ## 2. The calls -/

namespace ServiceCall

/-- **A call whose context counts** goes on once the checks have been called. -/
theorem run_of_accepts (hcall : call.Readable) (h : r.Accepts i context) :
    call.run i r context =
      (Run.mk (screen i r context).1 (.ok ())).bind fun _ => call.proceed i r context := by
  have hquery : ∀ q : Query, (q.decide i r context).bind (fun a => Run.pure (.answered a)) =
      (Run.mk (screen i r context).1 (.ok ())).bind fun _ => proceed.answer i r context q := by
    intro q
    have hscreen := screen_eq_none_iff.mpr h
    rcases hs : screen i r context with ⟨events, objection⟩
    rw [hs] at hscreen
    cases hscreen
    simp only [Query.decide, hs, Run.bind_assoc, proceed.answer]
  cases call with
  | hasPermission resource action filter =>
    obtain ⟨requested, hrequested⟩ := hcall
    simp only [run, AccessControl.hasPermission, proceed, hrequested]
    exact hquery (.permission resource action requested)
  | query q => exact hquery q
  | authenticate =>
    rw [run, authenticate_of_accepts h, Run.bind_of_ok rfl]
    rfl

/-- **A call whose context does not count** ends after the checks have been called. -/
theorem run_of_rejected (hcall : call.Readable) {why : Rejection}
    (h : (screen i r context).2 = some why) :
    call.run i r context =
      (Run.mk (screen i r context).1 (.ok ())).bind fun _ =>
        turnAway i r (call.rejection why context) := by
  rcases hs : screen i r context with ⟨events, objection⟩
  rw [hs] at h
  cases h
  have hquery : ∀ q : Query, (q.decide i r context).bind (fun a => Run.pure (.answered a)) =
      (Run.mk events (.ok ())).bind fun _ =>
        turnAway i r (why.audit q.bareSubject q.resource context) := by
    intro q
    simp only [Query.decide, hs, Run.bind_assoc]
    rfl
  cases call with
  | hasPermission resource action filter =>
    obtain ⟨requested, hrequested⟩ := hcall
    simp only [run, AccessControl.hasPermission, hrequested]
    exact hquery (.permission resource action requested)
  | query q => exact hquery q
  | authenticate =>
    simp only [run, AccessControl.authenticate, hs, AccessControl.turnAway, Run.bind_assoc]
    rfl

end ServiceCall

/-! ## 3. What is not looked at -/

/-- The context is screened in the same way, and requests are turned away in the same way.  The
registries may have other roles and resources, and what is called with two arguments, a context and
an instance, may do something else. -/
structure SameGate (i j : Interpretation) (r s : Registry) (context : Value) : Prop where
  checks : s.checks = r.checks
  logging : s.logging = r.logging
  sink : s.sink = r.sink
  authnRefusal : s.authnRefusal = r.authnRefusal
  evaluate : ∀ f, j.evaluate f [context] = i.evaluate f [context]
  deliver : j.deliver = i.deliver
  refuse : j.refuse = i.refuse

namespace SameGate

variable (h : SameGate i j r s context)

include h

theorem runChecks (checks : List GlobalCheck) :
    AccessControl.runChecks j context checks = AccessControl.runChecks i context checks := by
  induction checks with
  | nil => rfl
  | cons c rest ih => rw [AccessControl.runChecks, AccessControl.runChecks, h.evaluate, ih]

theorem screen : AccessControl.screen j s context = AccessControl.screen i r context := by
  rw [AccessControl.screen, AccessControl.screen, h.checks, h.runChecks]

theorem turnAway (a : Audit) : ServiceCall.turnAway j s a = ServiceCall.turnAway i r a := by
  simp only [ServiceCall.turnAway, AccessControl.deliver, AccessControl.refuse, h.logging, h.sink,
    h.authnRefusal, h.deliver, h.refuse]

end SameGate

/-- **A call that is turned away does not look further.** -/
theorem ServiceCall.run_congr (hcall : call.Readable) {why : Rejection}
    (hwhy : (screen i r context).2 = some why) (h : SameGate i j r s context) :
    call.run j s context = call.run i r context := by
  have hwhy' : (screen j s context).2 = some why := by rw [h.screen, hwhy]
  rw [run_of_rejected hcall hwhy, run_of_rejected hcall hwhy', h.screen, h.turnAway]

/-! ## 4. The gate -/

/-- The call is turned away for this reason.  After the checks its record is given to the sink, and
the request is refused; the record is a denial with the reason and the user of the context, whatever
has been asked; and nothing else has a part in it. -/
structure ServiceCall.TurnedAway (call : ServiceCall) (i : Interpretation) (r : Registry)
    (context : Value) (why : Rejection) : Prop where
  run : call.run i r context = (Run.mk (screen i r context).1 (.ok ())).bind fun _ =>
    turnAway i r (call.rejection why context)
  message : (call.rejection why context).message = .text why.message
  userId : (call.rejection why context).userId = .text (contextUserId context)
  denied : (call.rejection why context).result = .deny
  blind : ∀ j s, SameGate i j r s context → call.run j s context = call.run i r context

theorem ServiceCall.turnedAway (hcall : call.Readable) {why : Rejection}
    (h : (screen i r context).2 = some why) : call.TurnedAway i r context why where
  run := run_of_rejected hcall h
  message := by cases call <;> rfl
  userId := by cases call <;> rfl
  denied := by cases call <;> rfl
  blind := fun _ _ => run_congr hcall h

/-- The context of an administrator whose account has been suspended. -/
def suspendedContext : Value :=
  .record .context
    [("user_id", .text "a1"), ("role", .text Role.admin.name), ("rank", .int 1),
      ("is_active", .bool false), ("assigned_users", .tuple [])]

end AccessControl
