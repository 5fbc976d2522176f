import AccessControl.CommandLine.Execution
import AccessControl.Proofs.Decision.Relevance

/-!
# The registry on which decisions are tried out

The tool builds the registry of the application once more, with three differences: decisions are
recorded in any case, the records are kept by the tool itself, and denials carry no status.  These
are hooks, and what is decided does not depend on them (`record?_congr`): the record of a decision
is that of the application.

The tool never looks at the answer itself.  It reports what the record says, which it finds in the
denial, or else as the last record that it has kept.  Both are the record of the decision
(`conclude_decide`).
-/

namespace AccessControl

/-! ## 1. The registry, written down -/

namespace Inquiry

/-- The registry of the application with the hooks of the tool. -/
def withHooks (r : Registry) : Registry :=
  { r with
    logging := true
    sink := .sink .capture
    authnRefusal := .refusal .unauthenticated
    authzRefusal := .refusal .unauthorized }

/-- The registry on which decisions are tried out. -/
def trial : Registry := withHooks (Rulebook.registry true)

/-- The options of the tool, once they have been read. -/
def trialRead : RootOptions :=
  { Rulebook.options true with
    sink := some (.sink .capture)
    authnRefusal := some (.refusal .unauthenticated)
    authzRefusal := some (.refusal .unauthorized) }

theorem parse_trialOptions (logging : Bool) :
    RootOptions.parse (.map (trialOptions (Rulebook.rootOptions logging))) = .ok trialRead := rfl

/-- The hooks are put into a registry that is built without looking at them. -/
theorem build_trialRead :
    Registry.build trialRead = .ok (withHooks (Rulebook.declared true)) := by
  obtain ⟨withRoles, hroles, h⟩ := bind_eq_ok_iff.mp (Rulebook.build_options true)
  obtain ⟨withResources, hresources, h⟩ := bind_eq_ok_iff.mp h
  obtain ⟨withDefault, hdefault, h⟩ := bind_eq_ok_iff.mp h
  obtain ⟨withChecks, hchecks, h⟩ := bind_eq_ok_iff.mp h
  rw [← Except.ok.inj h]
  refine (bind_eq_of_ok hroles _).trans ?_
  refine (bind_eq_of_ok hresources _).trans ?_
  refine (bind_eq_of_ok hdefault _).trans ?_
  exact bind_eq_of_ok hchecks _

theorem addResource_withHooks :
    (withHooks (Rulebook.declared true)).addResource (.text Rulebook.userResource)
      Rulebook.userDefinition.toValue = .ok trial := by
  have hname : Registry.requireResource (.text Rulebook.userResource) =
      .ok Rulebook.userResource := rfl
  have hread : Definition.ofValue? Rulebook.userDefinition.toValue =
      some Rulebook.userDefinition := rfl
  have hvalid : Rulebook.userDefinition.validate (withHooks (Rulebook.declared true)).hasRole =
      .ok Rulebook.metadata := Rulebook.validate_userDefinition true
  rw [Registry.addResource, hname, ok_bind]
  simp only [Registry.define, hread, hvalid]
  rfl

/-- **The tool builds the registry of the application**, with hooks of its own. -/
theorem trialRegistry_outcome (logging : Bool) :
    (trialRegistry (Rulebook.rootOptions logging)).outcome = .ok trial := by
  have hbuilt :
      (Registry.fromOptions (.map (trialOptions (Rulebook.rootOptions logging)))).outcome =
        .ok (withHooks (Rulebook.declared true)) := by
    rw [Registry.fromOptions, parse_trialOptions]
    simp only [Except.bind, build_trialRead]
  have hdeclared : (withHooks (Rulebook.declared true)).hasResource Rulebook.userResource = true :=
    rfl
  have hdefined : (withHooks (Rulebook.declared true)).initResources Rulebook.userFeature =
      (trial, ⟨Registry.additionEvents Rulebook.userResource Rulebook.userDefinition.toValue ++ [],
        .ok ()⟩) := by
    rw [Registry.initResources, Rulebook.parse_userFeature]
    simp only [Registry.defineAll, hdeclared, addResource_withHooks]
    rfl
  rw [trialRegistry, Run.bind_of_ok hbuilt]
  simp only [hdefined]
  rfl

end Inquiry

/-! ## 2. Hooks and records -/

variable {i : Interpretation} {r s : Registry} {context : Value} {q : Query} {a : Audit}

/-- **The record does not depend on the hooks**, only on the checks and on the rulebook. -/
theorem record?_congr (hchecks : r.checks = s.checks)
    (hdef : r.resourceDefinition q.resource = s.resourceDefinition q.resource) :
    q.record? i r context = q.record? i s context := by
  simp only [Query.record?, screen_congr hchecks, find_congr hdef]

/-- **A decision ends as its record says**, if the sink takes the record and denials are raised. -/
theorem decide_of_record? (hsink : r.SinkWorks i) (hraises : q.raisesDenial = true)
    (ha : q.record? i r context = some a) :
    (a.allowed = true ∧
      (∃ asked, (q.decide i r context).events = asked ++ recordEvents i r a) ∧
        ∃ answer, (q.decide i r context).outcome = .ok answer) ∨
    a.allowed = false ∧ ∃ refusal ∈ [r.authnRefusal, r.authzRefusal],
      (q.decide i r context).outcome = .error (i.refuse refusal a) := by
  obtain ⟨asked, -, hcourse⟩ := exists_course q i r context
  generalize q.decide i r context = run at hcourse
  cases hcourse with
  | unanswered e _ hnone =>
    rw [ha] at hnone
    cases hnone
  | recorded b answer ending hb hending =>
    obtain rfl : a = b := Option.some.inj (ha.symm.trans hb)
    cases hending with
    | sinkFailed e hlog hfailed =>
      rw [hsink a hlog] at hfailed
      cases hfailed
    | unauthenticated _ hcontext =>
      right
      exact ⟨Audit.allowed_eq_false_iff.mpr (result_of_record? ha hcontext), _,
        List.mem_cons_self, rfl⟩
    | unauthorized _ _ hdenied _ =>
      right
      exact ⟨Audit.allowed_eq_false_iff.mpr hdenied, _, by simp, rfl⟩
    | answered _ _ hallowed =>
      left
      have hallow : a.result = .allow := by
        rcases hallowed with h | h
        · exact h
        · rw [hraises] at h
          cases h
      exact ⟨Audit.allowed_eq_true_iff.mpr hallow, ⟨asked, rfl⟩, answer, rfl⟩

namespace Inquiry

/-! ## 3. What the tool reports -/

theorem sinkWorks_trial : trial.SinkWorks .standard :=
  fun _ _ => rfl

/-- The record that the sink has taken last is the one that is found. -/
theorem lastRecord_append (asked : List Event) (a : Audit) :
    lastRecord (asked ++ recordEvents .standard trial a) = some a := by
  have hevents : recordEvents .standard trial a = [.called (.sink .capture), .audited a] := rfl
  rw [lastRecord, hevents, List.filterMap_append]
  exact List.getLast?_concat

/-- **The tool reports the record of the decision.** -/
theorem conclude_decide (hraises : q.raisesDenial = true)
    (ha : q.record? .standard trial context = some a) :
    conclude (q.decide .standard trial context) =
      print (if a.allowed then 0 else 1) (verdict a.allowed (some a)) := by
  rcases decide_of_record? sinkWorks_trial hraises ha with
    ⟨hallowed, ⟨asked, hevents⟩, answer, houtcome⟩ | ⟨hdenied, refusal, hmem, houtcome⟩
  · rw [conclude, houtcome, hevents, hallowed]
    simp only [lastRecord_append]
    rfl
  · have hkeeps : (Interpretation.standard.refuse refusal a).audit? = some a := by
      rcases List.mem_cons.mp hmem with rfl | hmem
      · rfl
      · rw [List.mem_singleton.mp hmem]
        rfl
    rw [conclude, houtcome, hdenied]
    simp only [hkeeps]
    rfl

end Inquiry

/-! ## 4. What can be written -/

namespace Json

/-- The value can be written, in any layout and at any depth. -/
def Writes (v : Value) : Prop :=
  ∀ indented depth, ∃ text, write indented depth v = .ok text

theorem writes_null : Writes .null := fun _ _ => ⟨_, rfl⟩

theorem writes_text (s : String) : Writes (.text s) := fun _ _ => ⟨_, rfl⟩

theorem writes_bool (b : Bool) : Writes (.bool b) := fun _ _ => ⟨_, rfl⟩

theorem writes_empty : Writes (.list []) := fun _ _ => ⟨_, rfl⟩

/-- A map can be written if its keys are texts and its values can be written. -/
theorem writes_map {es : List (Value × Value)} (h : ∀ e ∈ es, e.1.IsText ∧ Writes e.2) :
    Writes (.map es) := by
  have hentries : ∀ indented depth, ∃ parts, writeEntries indented depth es = .ok parts := by
    intro indented depth
    induction es with
    | nil => exact ⟨[], rfl⟩
    | cons e rest ih =>
      rw [List.forall_mem_cons] at h
      obtain ⟨⟨key, hkey⟩, hvalue⟩ := h.1
      obtain ⟨text, htext⟩ := hvalue indented depth
      obtain ⟨parts, hparts⟩ := ih h.2
      have hkeyText : keyText? e.1 = some key := by
        rcases Value.eq_of_text? hkey with heq | ⟨enumeration, name, heq⟩
        · rw [heq]
          rfl
        · rw [heq]
          rfl
      obtain ⟨k, v⟩ := e
      rw [writeEntries]
      simp only [hkeyText, htext, hparts]
      exact ⟨_, rfl⟩
  intro indented depth
  obtain ⟨parts, hparts⟩ := hentries indented (depth + 1)
  rw [write, hparts]
  exact ⟨_, rfl⟩

/-- Fields that can be written make a map that can be written. -/
theorem writes_flattenFields {fields : List (String × Value)}
    (h : ∀ f ∈ fields, Writes f.2.flatten) : Writes (.map (Value.flattenFields fields)) := by
  refine writes_map ?_
  induction fields with
  | nil =>
    intro e he
    cases he
  | cons f rest ih =>
    rw [List.forall_mem_cons] at h
    obtain ⟨key, v⟩ := f
    rw [Value.flattenFields, List.forall_mem_cons]
    exact ⟨⟨Value.isText_text key, h.1⟩, ih h.2⟩

end Json

end AccessControl
