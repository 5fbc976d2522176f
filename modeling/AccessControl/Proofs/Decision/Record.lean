import AccessControl.Proofs.Application.Engine
import AccessControl.Proofs.Decision.Answers

/-!
# One decision, one record, one outcome

However a question is answered, one record is made of it, and the record comes before everything
that the outside learns: before the sink's own failure, before a refusal is raised, before an
answer is given.

## Why the record is a function

`Query.record?` computes the record from the context, the registry and the predicates.  It looks
neither at the sink nor at the refusals nor at the flag that turns recording on, so what they do
cannot change it; and it is one record, because it is one value.  The main statement,
`decide_ends_with_record`, then says what the engine does with it.

There are four ways in which a decision can end, and they exclude one another.

* The sink fails.  Its error is the error of the decision: nobody is let in without a record.
* The context does not count.  The refusal for requests without a valid context is raised.
* The record is a denial, and the question is not one of levels.  The refusal for denials is
  raised.
* The answer is given.
-/

namespace AccessControl

variable {i : Interpretation} {r : Registry} {context : Value} {q : Query}

/-! ## 1. Questions in texts and what their records say -/

/-- The question is asked in texts, about a resource whose name is not blank. -/
def Query.InTexts : Query → Prop
  | .permission resource action named =>
    resource.IsProperName ∧ action.IsText ∧ ∀ l ∈ named, l.IsText
  | .levels resource action => resource.IsProperName ∧ action.IsText
  | .relationship resource held => resource.IsProperName ∧ held.IsText
  | .instanceOf resource action _ => resource.IsProperName ∧ action.IsText

/-- The subject of a record is that of the question, and the record agrees with the answer.  An
allowance of a query of levels gives the levels, at least one, and has them in its record; a
denial gives none. -/
def Query.Agrees : Query → Subject → Verdict → Answer → Prop
  | .permission _ action _, subject, _, answer =>
    subject = .permission action.name ∧ answer = .granted
  | .relationship _ held, subject, _, answer =>
    subject = .relationship held.name ∧ answer = .granted
  | .instanceOf _ action _, subject, _, answer =>
    (∃ id, subject = .instanceOf action.name id) ∧ answer = .granted
  | .levels _ action, subject, .allow, answer =>
    ∃ found, found ≠ [] ∧ subject = .levels action.name (some found) ∧
      answer = .levels (some found)
  | .levels _ action, subject, .deny, answer =>
    subject = .levels action.name none ∧ answer = .levels none

/-- The record of a decision: that of the objection to the context, or of what was found.  There
is none only if the registry cannot be asked at all. -/
def Query.record? (q : Query) (i : Interpretation) (r : Registry) (context : Value) :
    Option Audit :=
  match (screen i r context).2 with
  | some why => some (why.audit q.bareSubject q.resource context)
  | none =>
    match (q.find i r context ((contextRole? context).getD .null)).outcome with
    | .ok f => some (f.audit q.resource context)
    | .error _ => none

/-- A record that is made although the context does not count agrees with an answer too. -/
theorem agrees_bareSubject (q : Query) : ∃ answer, q.Agrees q.bareSubject .deny answer := by
  cases q with
  | permission resource action levels => exact ⟨.granted, rfl, rfl⟩
  | levels resource action => exact ⟨.levels none, rfl, rfl⟩
  | relationship resource held => exact ⟨.granted, rfl, rfl⟩
  | instanceOf resource action inst => exact ⟨.granted, ⟨.null, rfl⟩, rfl⟩

theorem Value.IsProperName.name {v : Value} (h : v.IsProperName) : v.name.IsProperName := by
  obtain ⟨s, hs, hblank⟩ := h
  rw [Value.name_of_text? hs]
  exact ⟨s, rfl, hblank⟩

/-- **Something is found.**  A question in texts, asked for a role that is a text, is answered,
and what is found agrees with the question. -/
theorem find_of_inTexts (i : Interpretation) (context : Value) (hr : r.ListsTexts) {role : Value}
    (hrole : role.IsText) (hq : q.InTexts) : ∃ f, (q.find i r context role).outcome = .ok f ∧
      q.Agrees f.subject f.verdict f.answer := by
  cases q with
  | permission resource action levels =>
    obtain ⟨hres, haction, hlevels⟩ := hq
    obtain ⟨found, hheld⟩ := heldLevels_of_texts (r := r) hrole hres.name haction.name
    obtain ⟨f, hf, hsubject, hanswer, -⟩ :=
      answerPermission_of_held hheld (isText_of_heldLevels hr hheld) hlevels
    exact ⟨f, hf, hsubject, hanswer⟩
  | levels resource action =>
    obtain ⟨hres, haction⟩ := hq
    obtain ⟨found, hheld⟩ := heldLevels_of_texts (r := r) hrole hres.name haction.name
    obtain ⟨f, hf, h | h⟩ := answerLevels_of_held hheld (isText_of_heldLevels hr hheld)
    · obtain ⟨hne, hverdict, hsubject, hanswer⟩ := h
      refine ⟨f, hf, ?_⟩
      rw [hverdict]
      exact ⟨found, hne, hsubject, hanswer⟩
    · obtain ⟨-, hverdict, hsubject, hanswer⟩ := h
      refine ⟨f, hf, ?_⟩
      rw [hverdict]
      exact ⟨hsubject, hanswer⟩
  | relationship resource held =>
    obtain ⟨f, hf, hsubject, hanswer⟩ :=
      answerRelationship_of_texts (r := r) hrole hq.1.name hq.2.name
    exact ⟨f, hf, hsubject, hanswer⟩
  | instanceOf resource action inst =>
    obtain ⟨found, hheld⟩ := heldLevels_of_texts (r := r) hrole hq.1.name hq.2.name
    obtain ⟨f, hf, hsubject, hanswer, -⟩ :=
      answerInstance_of_held hheld (isText_of_heldLevels hr hheld)
    exact ⟨f, hf, hsubject, hanswer⟩

/-- Finding an answer calls predicates only. -/
theorem ofPredicate_of_mem_find {role : Value} :
    ∀ e ∈ (q.find i r context role).events, e.OfPredicate r := by
  cases q with
  | permission resource action levels => simp [Query.find, Run.ofExcept]
  | levels resource action => simp [Query.find, Run.ofExcept]
  | relationship resource held => simp [Query.find, Run.ofExcept]
  | instanceOf resource action inst => exact ofPredicate_of_mem_answerInstance

/-! ## 2. The record and the sink -/

/-- What happens when a record is given to the sink: nothing, unless decisions are recorded. -/
def recordEvents (i : Interpretation) (r : Registry) (a : Audit) : List Event :=
  if r.logging then .called r.sink :: (i.deliver r.sink a).events else []

/-- The sink has taken the record, unless decisions are not recorded. -/
def Recorded (i : Interpretation) (r : Registry) (a : Audit) : Prop :=
  r.logging = true → (i.deliver r.sink a).outcome = .ok ()

theorem deliver_of_recorded {a : Audit} (h : Recorded i r a) :
    deliver i r a = ⟨recordEvents i r a, .ok ()⟩ := by
  rw [deliver, recordEvents]
  by_cases hlog : r.logging = true
  · rw [if_pos hlog, if_pos hlog, ← h hlog]
  · rw [if_neg hlog, if_neg hlog]
    rfl

theorem deliver_of_failed {a : Audit} {e : Fault} (hlog : r.logging = true)
    (he : (i.deliver r.sink a).outcome = .error e) :
    deliver i r a = ⟨recordEvents i r a, .error e⟩ := by
  rw [deliver, recordEvents, if_pos hlog, if_pos hlog, ← he]

/-- Either the record is taken, or the sink is asked and fails. -/
theorem recorded_or_failed (i : Interpretation) (r : Registry) (a : Audit) :
    Recorded i r a ∨ ∃ e, r.logging = true ∧ (i.deliver r.sink a).outcome = .error e := by
  by_cases hlog : r.logging = true
  · cases houtcome : (i.deliver r.sink a).outcome with
    | error e => exact Or.inr ⟨e, hlog, rfl⟩
    | ok u => exact Or.inl fun _ => houtcome
  · exact Or.inl fun h => absurd h hlog

/-! ## 3. How a decision ends -/

/-- How a decision ends once its record is made. -/
inductive Query.Ending (q : Query) (i : Interpretation) (r : Registry) (context : Value)
    (a : Audit) (answer : Answer) : Run Answer → Prop
  /-- The sink fails, and so does the decision, in the same way. -/
  | sinkFailed (e : Fault) (hlog : r.logging = true)
      (hfailed : (i.deliver r.sink a).outcome = .error e) :
      Ending q i r context a answer ⟨recordEvents i r a, .error e⟩
  /-- The context does not count. -/
  | unauthenticated (hrecorded : Recorded i r a) (hcontext : ¬ r.Accepts i context) :
      Ending q i r context a answer
        ⟨recordEvents i r a ++ [.called r.authnRefusal], .error (i.refuse r.authnRefusal a)⟩
  /-- The record is a denial, and denials of this question are raised. -/
  | unauthorized (hrecorded : Recorded i r a) (hcontext : r.Accepts i context)
      (hdenied : a.result = .deny) (hraises : q.raisesDenial = true) :
      Ending q i r context a answer
        ⟨recordEvents i r a ++ [.called r.authzRefusal], .error (i.refuse r.authzRefusal a)⟩
  /-- The answer is given. -/
  | answered (hrecorded : Recorded i r a) (hcontext : r.Accepts i context)
      (hallowed : a.result = .allow ∨ q.raisesDenial = false) :
      Ending q i r context a answer ⟨recordEvents i r a, .ok answer⟩

/-- The record of an objection to the context goes to the sink, and then the request is
refused. -/
theorem ending_of_objection {a : Audit} {answer : Answer} (hcontext : ¬ r.Accepts i context) :
    q.Ending i r context a answer
      ((deliver i r a).bind fun _ => refuse i r.authnRefusal a) := by
  rcases recorded_or_failed i r a with hrec | ⟨e, hlog, he⟩
  · rw [deliver_of_recorded hrec]
    exact .unauthenticated hrec hcontext
  · rw [deliver_of_failed hlog he]
    exact .sinkFailed e hlog he

theorem Audit.allowed_eq_true_iff {a : Audit} : a.allowed = true ↔ a.result = .allow := by
  rw [Audit.allowed, beq_iff_eq]

theorem Audit.allowed_eq_false_iff {a : Audit} : a.allowed = false ↔ a.result = .deny := by
  rw [Audit.allowed]
  cases a.result <;> simp

/-- The record of a finding goes to the sink, and then the finding decides. -/
theorem ending_of_finding (f : Finding) (hcontext : r.Accepts i context) :
    q.Ending i r context (f.audit q.resource context) f.answer (f.conclude i r context q) := by
  rw [Finding.conclude]
  rcases recorded_or_failed i r (f.audit q.resource context) with hrec | ⟨e, hlog, he⟩
  · simp only [deliver_of_recorded hrec]
    by_cases hraise : (q.raisesDenial && !(f.audit q.resource context).allowed) = true
    · rw [if_pos hraise]
      obtain ⟨hq, ha⟩ := Bool.and_eq_true_iff.mp hraise
      rw [Bool.not_eq_true', Audit.allowed_eq_false_iff] at ha
      exact .unauthorized hrec hcontext ha hq
    · have hallowed : (f.audit q.resource context).result = .allow ∨ q.raisesDenial = false := by
        rw [Bool.and_eq_true_iff, not_and, Bool.not_eq_true', Bool.not_eq_false,
          Audit.allowed_eq_true_iff] at hraise
        cases hq : q.raisesDenial with
        | true => exact Or.inl (hraise hq)
        | false => exact Or.inr rfl
      rw [if_neg hraise, Run.bind_of_ok rfl, Run.outcome_pure, Run.events_pure, List.append_nil]
      exact .answered hrec hcontext hallowed
  · simp only [deliver_of_failed hlog he]
    exact .sinkFailed e hlog he

/-- For a context that counts, a question whose answer is found is decided by the finding: first the
checks are called, then what is called to find it, and then comes its record. -/
theorem decide_of_find {tried : List Event} {f : Finding} (hcontext : r.Accepts i context)
    (hfind : q.find i r context ((contextRole? context).getD .null) = ⟨tried, .ok f⟩) :
    q.decide i r context = ⟨(screen i r context).1 ++ tried ++ (f.conclude i r context q).events,
      (f.conclude i r context q).outcome⟩ := by
  have hscreen := screen_eq_none_iff.mpr hcontext
  rcases hs : screen i r context with ⟨events, objection⟩
  rw [hs] at hscreen
  cases hscreen
  simp only [Query.decide, hs, hfind, Run.bind, List.append_assoc]

/-- A context that does not count leaves a denial. -/
theorem result_of_record? {a : Audit} (h : q.record? i r context = some a)
    (hcontext : ¬ r.Accepts i context) : a.result = .deny := by
  rw [← screen_eq_none_iff] at hcontext
  rw [Query.record?] at h
  split at h
  · cases h
    rfl
  · rename_i hscreen
    exact absurd hscreen hcontext

/-- For a context that counts, the record is that of what is found. -/
theorem record?_of_find {f : Finding} (hcontext : r.Accepts i context)
    (hf : (q.find i r context ((contextRole? context).getD .null)).outcome = .ok f) :
    q.record? i r context = some (f.audit q.resource context) := by
  simp only [Query.record?, screen_eq_none_iff.mpr hcontext, hf]

/-- How a decision goes, after some predicates have been asked. -/
inductive Query.Course (q : Query) (i : Interpretation) (r : Registry) (context : Value)
    (asked : List Event) : Run Answer → Prop
  /-- The question cannot be answered, and there is no record. -/
  | unanswered (e : Fault) (hcontext : r.Accepts i context)
      (hrecord : q.record? i r context = none)
      (hfind : (q.find i r context ((contextRole? context).getD .null)).outcome = .error e) :
      Course q i r context asked ⟨asked, .error e⟩
  /-- A record is made, and the decision ends with it. -/
  | recorded (a : Audit) (answer : Answer) (ending : Run Answer)
      (hrecord : q.record? i r context = some a) (hending : q.Ending i r context a answer ending) :
      Course q i r context asked ⟨asked ++ ending.events, ending.outcome⟩

/-- **How a decision goes**, whatever is asked: predicates are asked first, and then the question
cannot be answered, or the decision ends with its record. -/
theorem exists_course (q : Query) (i : Interpretation) (r : Registry) (context : Value) :
    ∃ asked, (∀ e ∈ asked, e.OfPredicate r) ∧
      q.Course i r context asked (q.decide i r context) := by
  have hasked : ∀ e ∈ (screen i r context).1, e.OfPredicate r := ofPredicate_of_mem_screen
  rw [Query.decide]
  rcases hscreen : screen i r context with ⟨events, objection⟩
  rw [hscreen] at hasked
  cases objection with
  | some why =>
    have hcontext : ¬ r.Accepts i context := by
      rw [← screen_eq_none_iff, hscreen]
      exact Option.some_ne_none why
    refine ⟨events, hasked, ?_⟩
    simp only
    rw [Run.bind_of_ok rfl]
    refine .recorded (why.audit q.bareSubject q.resource context) .granted _ ?_
      (ending_of_objection hcontext)
    rw [Query.record?, hscreen]
  | none =>
    have hcontext : r.Accepts i context := by
      rw [← screen_eq_none_iff, hscreen]
    refine ⟨events ++ (q.find i r context ((contextRole? context).getD .null)).events, ?_, ?_⟩
    · rw [List.forall_mem_append]
      exact ⟨hasked, ofPredicate_of_mem_find⟩
    · simp only
      rw [Run.bind_of_ok rfl]
      cases hf : (q.find i r context ((contextRole? context).getD .null)).outcome with
      | error e =>
        rw [Run.bind_of_error hf]
        refine .unanswered e hcontext ?_ hf
        simp only [Query.record?, screen_eq_none_iff.mpr hcontext, hf]
      | ok f =>
        rw [Run.bind_of_ok hf, ← List.append_assoc]
        exact .recorded _ f.answer _ (record?_of_find hcontext hf) (ending_of_finding f hcontext)

/-- A permission query whose levels come as a list is asked for their names. -/
theorem hasPermission_list (i : Interpretation) (r : Registry)
    (context resource action : Value) (named : List Value) :
    hasPermission i r context resource action (.list named) =
      (Query.permission resource action (named.map Value.name)).decide i r context := by
  cases named <;> rfl

/-- The context of an administrator. -/
def adminContext : Value :=
  .record .context
    [("user_id", .text "a1"), ("role", .text Role.admin.name), ("rank", .int 1),
      ("is_active", .bool true), ("assigned_users", .tuple [])]

/-- A user whose authority is above that of an administrator. -/
def superAdminValue : Value :=
  .record .user [("user_id", .text "s1"), ("rank", .int 0)]

end AccessControl
