import AccessControl.Proofs.Application.Authority
import AccessControl.Proofs.Decision.Events

/-!
# What the records of decisions attest

A decision leaves one record, and with a sink that keeps what it is given this record is found
among the events.  If the question has been answered, the record says what has been found
(`records_of_decide_ok`).

In the application the caller is an account and the questions are about users.  There an allowance
attests three things: which action was asked for, about which account, and in whose name
(`attest_permission`, `attest_instanceOf`).
-/

namespace AccessControl

/-! ## 1. Records among events -/

/-- The records among some events. -/
def recordsOf (events : List Event) : List Audit :=
  events.filterMap Event.audit?

theorem recordsOf_append (events later : List Event) :
    recordsOf (events ++ later) = recordsOf events ++ recordsOf later :=
  List.filterMap_append

theorem recordsOf_eq_nil {events : List Event} (h : ∀ e ∈ events, e.audit? = none) :
    recordsOf events = [] :=
  List.filterMap_eq_nil_iff.mpr h

/-- A line of the server's own log is no record. -/
theorem recordsOf_line {line : LogRecord} (h : line.audit = none) :
    recordsOf [.logged line] = [] :=
  recordsOf_eq_nil (List.forall_mem_singleton.mpr h)

variable {i : Interpretation} {r : Registry} {context : Value} {q : Query}

/-- Predicates leave no records. -/
theorem recordsOf_ofPredicate {asked : List Event} (h : ∀ e ∈ asked, e.OfPredicate r) :
    recordsOf asked = [] :=
  recordsOf_eq_nil fun e he => (h e he).audit?_eq_none

/-- Every record that is made is kept, once and as it is. -/
def Registry.Keeps (r : Registry) (i : Interpretation) : Prop :=
  ∀ a, recordsOf (recordEvents i r a) = [a]

/-- A question that is answered leaves the record of what has been found. -/
theorem records_of_decide_ok (hkeeps : r.Keeps i) {answer : Answer}
    (h : (q.decide i r context).outcome = .ok answer) :
    ∃ f, (q.find i r context ((contextRole? context).getD .null)).outcome = .ok f ∧
      recordsOf (q.decide i r context).events = [f.audit q.resource context] ∧
      (f.verdict = .allow ∨ q.raisesDenial = false) := by
  obtain ⟨f, hf, -⟩ := exists_find_of_decide h
  obtain ⟨asked, hasked, hcourse⟩ := exists_course q i r context
  refine ⟨f, hf, ?_⟩
  generalize q.decide i r context = run at hcourse h
  cases hcourse with
  | unanswered e => cases h
  | recorded a answer' ending hrecord hending =>
    cases hending with
    | answered _ hcontext hallowed =>
      rw [record?_of_find hcontext hf] at hrecord
      cases hrecord
      rw [recordsOf_append, recordsOf_ofPredicate hasked, hkeeps]
      exact ⟨rfl, hallowed⟩
    | _ => cases h

/-! ## 2. Questions of an account -/

/-- The records answer these questions about users, in this order; they are all allowances, and
they name the caller. -/
structure Attest (c : Account) (subjects : List Subject) (records : List Audit) : Prop where
  subjects_eq : records.map Audit.subject = subjects
  allowed : ∀ a ∈ records, a.result = .allow
  principal : ∀ a ∈ records, a.userId = .text c.userId
  resource : ∀ a ∈ records, a.resource = .text Rulebook.userResource

variable {c : Account} {action : UserAction}

theorem attest_nil (c : Account) : Attest c [] [] :=
  ⟨rfl, by simp, by simp, by simp⟩

theorem Attest.append {subjects later : List Subject} {records after : List Audit}
    (h : Attest c subjects records) (hafter : Attest c later after) :
    Attest c (subjects ++ later) (records ++ after) where
  subjects_eq := by rw [List.map_append, h.subjects_eq, hafter.subjects_eq]
  allowed := List.forall_mem_append.mpr ⟨h.allowed, hafter.allowed⟩
  principal := List.forall_mem_append.mpr ⟨h.principal, hafter.principal⟩
  resource := List.forall_mem_append.mpr ⟨h.resource, hafter.resource⟩

namespace UserAction

/-- The question whether an action is granted at all, as it is recorded. -/
def asked (action : UserAction) : Subject :=
  .permission (.text action.name)

/-- The question whether an action may be applied to the account with an id, as it is recorded. -/
def askedOf (action : UserAction) (userId : String) : Subject :=
  .instanceOf (.text action.name) (.text userId)

end UserAction

/-- The principal of a record is the account whose context it is. -/
theorem contextUserId_context (hid : c.userId ≠ "") : contextUserId c.context = c.userId := by
  have htruthy : (Value.text c.userId).truthy = true := by simpa [Value.truthy] using hid
  exact if_pos htruthy

/-- The application keeps every record. -/
theorem Rulebook.keeps_registry : (registry true).Keeps .standard := fun _ => rfl

/-- What the application decides about a question in the name of an account. -/
def Account.decide (c : Account) (q : Query) : Run Answer :=
  q.decide .standard (Rulebook.registry true) c.context

/-- A question whose denial is raised leaves one record if it is answered. -/
theorem attest_decide (hid : c.userId ≠ "") {q : Query} {answer : Answer} {subject : Subject}
    (hraised : q.raisesDenial = true) (hresource : q.resource = .text Rulebook.userResource)
    (hanswer : (c.decide q).outcome = .ok answer)
    (hsubject : ∀ f, (q.find .standard (Rulebook.registry true) c.context
      (.text c.role.name)).outcome = .ok f → f.verdict = .allow → f.subject = subject) :
    Attest c [subject] (recordsOf (c.decide q).events) := by
  obtain ⟨f, hf, hrecords, hallow | hquiet⟩ := records_of_decide_ok Rulebook.keeps_registry hanswer
  · rw [Rulebook.contextRole?_context] at hf
    rw [Account.decide, hrecords]
    refine ⟨?_, ?_, ?_, ?_⟩
    · exact congrArg (fun s => [s]) (hsubject f hf hallow)
    · exact List.forall_mem_singleton.mpr hallow
    · rw [List.forall_mem_singleton, ← contextUserId_context hid]
      rfl
    · exact List.forall_mem_singleton.mpr hresource
  · rw [hraised] at hquiet
    cases hquiet

/-- **A permission** that is granted attests that the action was asked for. -/
theorem attest_permission (hid : c.userId ≠ "") {answer : Answer}
    (hanswer : (c.decide (.permission Rulebook.userMember action.member [])).outcome =
      .ok answer) :
    Attest c [action.asked]
      (recordsOf (c.decide (.permission Rulebook.userMember action.member [])).events) := by
  refine attest_decide hid rfl rfl hanswer fun f hf _ => ?_
  have htexts : (Query.permission Rulebook.userMember action.member []).InTexts :=
    ⟨⟨Rulebook.userResource, rfl, by decide⟩, ⟨action.name, rfl⟩, by simp⟩
  obtain ⟨f', hf', hsubject, -⟩ := find_of_inTexts .standard c.context
    (Rulebook.listsTexts_registry true) (Value.isText_text c.role.name) htexts
  rw [Except.ok.inj (hf.symm.trans hf')]
  exact hsubject

/-- **An action that is allowed** on an account attests that it was asked for on this account. -/
theorem attest_instanceOf (hid : c.userId ≠ "") {answer : Answer} {t : Account}
    (hanswer : (c.decide (.instanceOf Rulebook.userMember action.member t.user.toValue)).outcome =
      .ok answer) :
    Attest c [action.askedOf t.userId] (recordsOf
      (c.decide (.instanceOf Rulebook.userMember action.member t.user.toValue)).events) := by
  refine attest_decide hid rfl rfl hanswer fun f hf hallow => ?_
  obtain ⟨m, hm, hsubject⟩ := subject_of_answerInstance hf hallow
  obtain ⟨name, hname⟩ := metadata?_of_resourceDefinition hm
  rw [hsubject, Rulebook.eq_metadata_of_metadata? hname]
  rfl

end AccessControl
