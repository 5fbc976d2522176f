import AccessControl.Proofs.Decision.Agreement

/-!
# What keeps a question from being answered

An allowance and a denial are answers.  A question may also get none, because something about it
cannot be looked up: a resource whose name is blank, a value that cannot be a key, names that
cannot be joined into the words of a record.  All of these are mistakes in the use of the engine,
and their errors are *technical*: they are neither the refusal of a denial nor the refusal of a
request without a valid context.

* `technical_find`: whatever is asked, what keeps it from being answered is technical.
* `origin_decide`: a decision ends with an error that is technical, or of the sink, or made by one
  of the two refusals.
* `decide_error`: if the context counts and the sink works, only technical errors and refusals of
  denials are left.

The errors of predicates do not come this far: a predicate that fails is a denial.
-/

namespace AccessControl

variable {i : Interpretation} {r : Registry} {context role resource action : Value} {q : Query}

/-- The error is about a value that is used for something it cannot do, or about a name that is
not one. -/
def Fault.Technical : Fault → Prop
  | misuse _ => True
  | config _ => True
  | _ => False

/-! ## 1. Looking up -/

theorem technical_requireKey (v : Value) :
    FailsWith Fault.Technical (v.requireKey Fault.misuse) := by
  rw [Value.requireKey]
  split
  · exact failsWith_error trivial
  · exact failsWith_ok _

theorem technical_requireElement (v : Value) :
    FailsWith Fault.Technical (v.requireElement Fault.misuse) := by
  unfold Value.requireElement
  split
  · exact failsWith_ok _
  · exact technical_requireKey _

theorem technical_requireName (what : String) (v : Value) :
    FailsWith Fault.Technical (Registry.requireName what v) := by
  rw [Registry.requireName]
  split
  · split
    · exact failsWith_error trivial
    · exact failsWith_ok _
  · exact failsWith_error trivial

theorem technical_resourceDefinition (r : Registry) (resource : Value) :
    FailsWith Fault.Technical (r.resourceDefinition resource) :=
  failsWith_bind (technical_requireName _ _) fun _ => failsWith_ok _

theorem technical_roleInfo (r : Registry) (role : Value) :
    FailsWith Fault.Technical (r.roleInfo role) :=
  failsWith_bind (technical_requireName _ _) fun _ => failsWith_ok _

theorem technical_grantFor? (m : Metadata) (role : Value) :
    FailsWith Fault.Technical (grantFor? m role) :=
  failsWith_bind (technical_requireKey _) fun _ => failsWith_ok _

theorem technical_levelsFor (g : Grant) (action : Value) :
    FailsWith Fault.Technical (levelsFor g action) :=
  failsWith_bind (technical_requireKey _) fun _ => failsWith_ok _

theorem technical_joined (names : List Value) : FailsWith Fault.Technical (joined names) := by
  rw [joined]
  split
  · exact failsWith_ok _
  · exact failsWith_error trivial

theorem technical_unknownNames (known names : List Value) :
    FailsWith Fault.Technical (unknownNames known names) := by
  induction names with
  | nil => exact failsWith_ok _
  | cons v rest ih =>
    refine failsWith_bind (technical_requireKey v) fun _ => failsWith_bind ih fun later => ?_
    exact failsWith_ok _

theorem technical_contextField (context : Value) (key : String) :
    FailsWith Fault.Technical (Expr.contextField context key) := by
  rw [Expr.contextField]
  split
  · exact failsWith_ok _
  · exact failsWith_error trivial

/-- The look-ups that the questions begin with add nothing else to what their ends can fail
with. -/
theorem technical_lookUp {α : Type} {noRulebook : Except Fault α}
    {noGrant : Metadata → Except Fault α} {answer : Metadata → List Value → Except Fault α}
    (hnoRulebook : FailsWith Fault.Technical noRulebook)
    (hnoGrant : ∀ m, FailsWith Fault.Technical (noGrant m))
    (hanswer : ∀ m found, FailsWith Fault.Technical (answer m found)) :
    FailsWith Fault.Technical (r.lookUp role resource action noRulebook noGrant answer) := by
  refine failsWith_bind (technical_resourceDefinition _ _) fun defined => ?_
  cases defined with
  | none => exact hnoRulebook
  | some m =>
    refine failsWith_bind (technical_grantFor? _ _) fun granted => ?_
    cases granted with
    | none => exact hnoGrant m
    | some g => exact failsWith_bind (technical_levelsFor _ _) fun found => hanswer m found

theorem technical_heldLevels (r : Registry) (role resource action : Value) :
    FailsWith Fault.Technical (r.heldLevels role resource action) := by
  refine failsWith_bind (technical_resourceDefinition _ _) fun defined => ?_
  cases defined with
  | none => exact failsWith_ok _
  | some m =>
    refine failsWith_bind (technical_grantFor? _ _) fun granted => ?_
    cases granted with
    | none => exact failsWith_ok _
    | some g => exact technical_levelsFor _ _

/-! ## 2. The four questions -/

theorem technical_answerFilter (m : Metadata) (action role : Value)
    (granted requested : List Value) :
    FailsWith Fault.Technical (answerFilter m action role granted requested) := by
  rw [answerFilter]
  split
  · exact failsWith_ok _
  · split
    · exact failsWith_bind (technical_joined _) fun _ => failsWith_ok _
    · refine failsWith_bind (technical_unknownNames _ _) fun unknown => ?_
      split
      · exact failsWith_bind (technical_joined _) fun _ => failsWith_ok _
      · split
        · exact failsWith_bind (technical_joined _) fun _ => failsWith_ok _
        · refine failsWith_bind (technical_joined _) fun _ => ?_
          exact failsWith_bind (technical_joined _) fun _ => failsWith_ok _

theorem technical_foundLevels (action : Value) (found : List Value) :
    FailsWith Fault.Technical (foundLevels action found) := by
  rw [foundLevels]
  split
  · exact failsWith_ok _
  · exact failsWith_bind (technical_joined _) fun _ => failsWith_ok _

theorem technical_answerRelationship (r : Registry) (role resource held : Value) :
    FailsWith Fault.Technical (answerRelationship r role resource held) := by
  refine failsWith_bind (technical_resourceDefinition _ _) fun defined => ?_
  cases defined with
  | none => exact failsWith_ok _
  | some m =>
    refine failsWith_bind (technical_grantFor? _ _) fun granted => ?_
    cases granted with
    | none => exact failsWith_ok _
    | some g =>
      refine failsWith_bind (technical_requireElement _) fun _ => ?_
      split
      · exact failsWith_ok _
      · exact failsWith_ok _

theorem technical_concludeInstance (subject : Subject) (granted : List Value)
    (outcome : LevelOutcome) :
    FailsWith Fault.Technical (concludeInstance subject granted outcome) := by
  cases outcome with
  | accepted level => exact failsWith_ok _
  | errored level kind => exact failsWith_ok _
  | none => exact failsWith_bind (technical_joined _) fun _ => failsWith_ok _

theorem technical_answerInstance (i : Interpretation) (r : Registry)
    (context role resource action inst : Value) :
    FailsWith Fault.Technical (answerInstance i r context role resource action inst).outcome := by
  rcases answerInstance_cases i r context role resource action inst with
    ⟨e, he, hrun⟩ | ⟨id, message, -, hrun⟩ | ⟨m, found, -, -, -, hrun⟩
  · rw [hrun]
    exact failsWith_error (technical_heldLevels r role resource action e he)
  · rw [hrun]
    exact failsWith_ok _
  · rw [hrun]
    exact technical_concludeInstance _ _ _

/-- **What keeps a question from being answered** is technical, whatever is asked. -/
theorem technical_find (q : Query) (i : Interpretation) (r : Registry) (context role : Value) :
    FailsWith Fault.Technical (q.find i r context role).outcome := by
  cases q with
  | permission resource action levels =>
    exact technical_lookUp (failsWith_ok _) (fun _ => failsWith_ok _) fun _ _ =>
      technical_answerFilter _ _ _ _ _
  | levels resource action =>
    exact technical_lookUp (failsWith_ok _) (fun _ => failsWith_ok _) fun _ _ =>
      technical_foundLevels _ _
  | relationship resource held => exact technical_answerRelationship _ _ _ _
  | instanceOf resource action inst => exact technical_answerInstance _ _ _ _ _ _ _

/-! ## 3. Decisions -/

/-- Where an error of a decision comes from. -/
inductive Fault.Origin (i : Interpretation) (r : Registry) : Fault → Prop
  /-- The question cannot be answered. -/
  | technical (e : Fault) (he : e.Technical) : Origin i r e
  /-- The sink fails on a record. -/
  | sink (e : Fault) (a : Audit) (he : (i.deliver r.sink a).outcome = .error e) : Origin i r e
  /-- The context does not count. -/
  | unauthenticated (a : Audit) : Origin i r (i.refuse r.authnRefusal a)
  /-- The answer is a denial. -/
  | unauthorized (a : Audit) : Origin i r (i.refuse r.authzRefusal a)

/-- **A decision that ends with an error** has one of these origins, whatever is asked. -/
theorem origin_decide (q : Query) (i : Interpretation) (r : Registry) (context : Value) :
    FailsWith (Fault.Origin i r) (q.decide i r context).outcome := by
  obtain ⟨asked, -, hcourse⟩ := exists_course q i r context
  generalize q.decide i r context = run at hcourse
  cases hcourse with
  | unanswered e _ _ hfind =>
    exact failsWith_error (.technical e (technical_find q i r context _ e hfind))
  | recorded a answer ending _ hending =>
    cases hending with
    | sinkFailed e _ hfailed => exact failsWith_error (.sink e a hfailed)
    | unauthenticated => exact failsWith_error (.unauthenticated a)
    | unauthorized => exact failsWith_error (.unauthorized a)
    | answered => exact failsWith_ok _

/-- A request that is turned away fails like a decision. -/
theorem origin_turnAway {α : Type} (message resource userId : Value) :
    FailsWith (Fault.Origin i r) (turnAway i r message resource userId : Run α).outcome := by
  rw [turnAway]
  rcases recorded_or_failed i r ⟨.request, resource, userId, .deny, message⟩ with
    hrec | ⟨e, hlog, he⟩
  · simp only [deliver_of_recorded hrec]
    exact failsWith_error (.unauthenticated _)
  · simp only [deliver_of_failed hlog he]
    exact failsWith_error (.sink e _ he)

/-- A context that is not authenticated fails like a decision. -/
theorem origin_authenticate : FailsWith (Fault.Origin i r) (authenticate i r context).outcome := by
  rw [authenticate]
  split
  · exact failsWith_ok _
  · rw [Run.bind_of_ok rfl]
    exact origin_turnAway _ _ _

/-- For a context that counts, and with a sink that works, a decision fails because the question
cannot be answered, or because the answer is a denial. -/
theorem decide_error (hsink : r.SinkWorks i) (hc : r.Accepts i context) :
    FailsWith (fun e => e.Technical ∨ ∃ a, e = i.refuse r.authzRefusal a)
      (q.decide i r context).outcome := by
  obtain ⟨asked, -, hcourse⟩ := exists_course q i r context
  generalize q.decide i r context = run at hcourse
  cases hcourse with
  | unanswered e _ _ hfind =>
    exact failsWith_error (Or.inl (technical_find q i r context _ e hfind))
  | recorded a answer ending _ hending =>
    cases hending with
    | sinkFailed e hlog hfailed =>
      rw [hsink _ hlog] at hfailed
      cases hfailed
    | unauthenticated _ hcontext => exact absurd hc hcontext
    | unauthorized => exact failsWith_error (Or.inr ⟨a, rfl⟩)
    | answered => exact failsWith_ok _

end AccessControl
