import AccessControl.Proofs.Decision.Record

/-!
# What the engine does beside answering

The engine calls functions and logs, and it gives records to the sink.  A predicate or a refusal
cannot do anything to the directory; a sink may evict a user.  So whatever the engine does is
harmless to the directory if the sink is, `Registry.SinkHarmless`: for a question that is decided,
for a context that is authenticated, and for a request that is turned away.
-/

namespace AccessControl

/-- The event does not reach the directory. -/
def Event.Harmless : Event → Prop
  | .evicted _ => False
  | _ => True

/-- The record of a decision that the event hands on. -/
def Event.audit? : Event → Option Audit
  | .logged line => line.audit
  | .audited a => some a
  | _ => none

/-- Nothing that the sink does reaches the directory. -/
def Registry.SinkHarmless (r : Registry) (i : Interpretation) : Prop :=
  ∀ a, ∀ e ∈ (i.deliver r.sink a).events, e.Harmless

variable {i : Interpretation} {r : Registry} {context : Value} {q : Query}

/-- An event of a predicate is harmless. -/
theorem Event.OfPredicate.harmless {e : Event} (h : e.OfPredicate r) : e.Harmless := by
  cases e with
  | evicted userId => exact absurd h id
  | _ => trivial

/-- Predicates make no records. -/
theorem Event.OfPredicate.audit?_eq_none {e : Event} (h : e.OfPredicate r) : e.audit? = none := by
  cases e with
  | called f => rfl
  | logged line => exact h.2
  | audited a => exact h.elim
  | evicted userId => rfl

theorem Run.bind_assoc {α β γ : Type} (x : Run α) (f : α → Run β) (g : β → Run γ) :
    (x.bind f).bind g = x.bind fun a => (f a).bind g := by
  cases h : x.outcome with
  | error fault =>
    rw [Run.bind_of_error h, Run.bind_of_error h]
    rfl
  | ok a =>
    rw [Run.bind_of_ok h, Run.bind_of_ok h]
    cases hf : (f a).outcome with
    | error fault =>
      rw [Run.bind_of_error hf]
      rfl
    | ok b =>
      rw [Run.bind_of_ok hf, ← List.append_assoc]
      rfl

/-- The events of a chain of runs are those of its links. -/
theorem Run.forall_mem_events_bind {α β : Type} {P : Event → Prop} {x : Run α} {f : α → Run β}
    (hx : ∀ e ∈ x.events, P e) (hf : ∀ a, ∀ e ∈ (f a).events, P e) :
    ∀ e ∈ (x.bind f).events, P e := by
  cases h : x.outcome with
  | error fault =>
    rw [Run.bind_of_error h]
    exact hx
  | ok a =>
    rw [Run.bind_of_ok h, List.forall_mem_append]
    exact ⟨hx, hf a⟩

theorem harmless_of_mem_deliver (hsink : r.SinkHarmless i) (a : Audit) :
    ∀ e ∈ (deliver i r a).events, e.Harmless := by
  rw [deliver]
  split
  · rw [List.forall_mem_cons]
    exact ⟨trivial, hsink a⟩
  · simp

theorem harmless_of_mem_refuse {α : Type} (refusal : Callable) (a : Audit) :
    ∀ e ∈ (refuse i refusal a : Run α).events, e.Harmless := by
  rw [refuse, List.forall_mem_singleton]
  trivial

/-- **Deciding a question is harmless.** -/
theorem harmless_of_mem_decide (hsink : r.SinkHarmless i) :
    ∀ e ∈ (q.decide i r context).events, e.Harmless := by
  have hasked : ∀ e ∈ (screen i r context).1, e.Harmless := fun e he =>
    (ofPredicate_of_mem_screen e he).harmless
  rw [Query.decide]
  split
  · rename_i events why hscreen
    rw [hscreen] at hasked
    refine Run.forall_mem_events_bind hasked fun _ => ?_
    exact Run.forall_mem_events_bind (harmless_of_mem_deliver hsink _) fun _ =>
      harmless_of_mem_refuse _ _
  · rename_i events hscreen
    rw [hscreen] at hasked
    refine Run.forall_mem_events_bind hasked fun _ => ?_
    refine Run.forall_mem_events_bind (fun e he => (ofPredicate_of_mem_find e he).harmless)
      fun f => ?_
    refine Run.forall_mem_events_bind (harmless_of_mem_deliver hsink _) fun _ => ?_
    split
    · exact harmless_of_mem_refuse _ _
    · simp

/-- Turning a request away is harmless. -/
theorem harmless_of_mem_turnAway {α : Type} (hsink : r.SinkHarmless i)
    (message resource userId : Value) :
    ∀ e ∈ (turnAway i r message resource userId : Run α).events, e.Harmless :=
  Run.forall_mem_events_bind (harmless_of_mem_deliver hsink _) fun _ =>
    harmless_of_mem_refuse _ _

/-- Authenticating a context is harmless. -/
theorem harmless_of_mem_authenticate (hsink : r.SinkHarmless i) :
    ∀ e ∈ (authenticate i r context).events, e.Harmless := by
  have hasked : ∀ e ∈ (screen i r context).1, e.Harmless := fun e he =>
    (ofPredicate_of_mem_screen e he).harmless
  rw [authenticate]
  split
  · rename_i events hscreen
    rw [hscreen] at hasked
    exact hasked
  · rename_i events why hscreen
    rw [hscreen] at hasked
    exact Run.forall_mem_events_bind hasked fun _ => harmless_of_mem_turnAway hsink _ _ _

/-- A request that is turned away gets no answer. -/
theorem turnAway_ne_ok {α : Type} (message resource userId : Value) (answer : α) :
    (turnAway i r message resource userId : Run α).outcome ≠ .ok answer := by
  intro h
  rw [turnAway] at h
  rcases recorded_or_failed i r ⟨.request, resource, userId, .deny, message⟩ with
    hrec | ⟨e, hlog, he⟩
  · simp only [deliver_of_recorded hrec] at h
    cases h
  · simp only [deliver_of_failed hlog he] at h
    cases h

/-- A context that counts is authenticated once it has been screened. -/
theorem authenticate_of_accepts (h : r.Accepts i context) :
    authenticate i r context = ⟨(screen i r context).1, .ok context⟩ := by
  have hscreen := screen_eq_none_iff.mpr h
  rw [authenticate]
  rcases hs : screen i r context with ⟨events, objection⟩
  rw [hs] at hscreen
  cases hscreen
  rfl

/-- A context that is authenticated is the one that was given, and it counts. -/
theorem authenticate_ok_iff {found : Value} :
    (authenticate i r context).outcome = .ok found ↔ found = context ∧ r.Accepts i context := by
  rw [authenticate, ← screen_eq_none_iff]
  split
  · rename_i events hscreen
    rw [hscreen]
    exact ⟨fun h => ⟨(Except.ok.inj h).symm, rfl⟩, fun h => congrArg Except.ok h.1.symm⟩
  · rename_i events why hscreen
    rw [hscreen, Run.bind_of_ok rfl]
    constructor
    · exact fun h => absurd h (turnAway_ne_ok _ _ _ found)
    · rintro ⟨-, h⟩
      cases h

end AccessControl
