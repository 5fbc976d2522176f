import AccessControl.Proofs.Decision.Grants

/-!
# What the questions find

One statement for each of the four questions: what is found, once it is known which levels the
role holds.  Names are texts here, so that the words of a record can always be put together.

* A *permission* query is allowed when levels are held, and every level that is asked for is one
  of the rulebook and one of those held.
* A query of *levels* gives the levels held, if there are any.
* An *instance* query that is allowed names one of the levels held, one whose predicate accepted
  the instance.
* A *relationship* query does not look at levels.
-/

namespace AccessControl

variable {i : Interpretation} {r : Registry} {context role resource action : Value}

/-- The rulebook of the resource has a level of this name. -/
def Registry.KnowsLevel (r : Registry) (resource level : Value) : Prop :=
  ∃ m, r.resourceDefinition resource = .ok (some m) ∧
    (m.levels.map Prod.fst).any (Value.same · level) = true

theorem Registry.knowsLevel_iff {m : Metadata} {level : Value}
    (hdef : r.resourceDefinition resource = .ok (some m)) :
    r.KnowsLevel resource level ↔ (m.levels.map Prod.fst).any (Value.same · level) = true := by
  constructor
  · rintro ⟨m', hm', hknown⟩
    rw [hdef] at hm'
    cases hm'
    exact hknown
  · exact fun hknown => ⟨m, hdef, hknown⟩

/-! ## 1. Permissions -/

/-- The filter of a permission query lets exactly the levels pass that are known and held. -/
theorem answerFilter_spec (m : Metadata) (action role : Value) {granted requested : List Value}
    (hgranted : ∀ l ∈ granted, l.IsText) (hrequested : ∀ l ∈ requested, l.IsText) :
    ∃ f, answerFilter m action role granted requested = .ok f ∧
      f.subject = .permission action ∧ f.answer = .granted ∧
      (f.verdict = .allow ↔ granted ≠ [] ∧
        (∀ v ∈ requested, (m.levels.map Prod.fst).any (Value.same · v) = true) ∧
        ∀ v ∈ requested, granted.any (Value.same · v) = true) := by
  rw [answerFilter]
  by_cases hempty : granted.isEmpty = true
  · rw [if_pos hempty]
    have hnil : granted = [] := List.isEmpty_iff.mp hempty
    refine ⟨_, rfl, rfl, rfl, ?_⟩
    exact ⟨fun h => Verdict.noConfusion h, fun h => absurd hnil h.1⟩
  have hne : granted ≠ [] := fun h => hempty (List.isEmpty_iff.mpr h)
  rw [if_neg hempty]
  obtain ⟨heldWords, hheld⟩ := joined_of_isText hgranted
  obtain ⟨askedWords, hasked⟩ := joined_of_isText hrequested
  by_cases hnone : requested.isEmpty = true
  · rw [if_pos hnone, hheld, ok_bind]
    rw [List.isEmpty_iff.mp hnone]
    exact ⟨_, rfl, rfl, rfl, fun _ => ⟨hne, by simp, by simp⟩, fun _ => rfl⟩
  rw [if_neg hnone, unknownNames_of_isText _ hrequested, ok_bind]
  -- a level that is asked for but not known is refused before anything else is compared
  by_cases hunknown :
      (requested.filter fun v => !(m.levels.map Prod.fst).any (Value.same · v)) = []
  · have hknown : ∀ v ∈ requested, (m.levels.map Prod.fst).any (Value.same · v) = true := by
      intro v hv
      have hnot := List.filter_eq_nil_iff.mp hunknown v hv
      cases hany : (m.levels.map Prod.fst).any (Value.same · v) with
      | true => rfl
      | false => exact absurd (by rw [hany]; rfl) hnot
    rw [hunknown, if_neg (by simp)]
    by_cases hall : (requested.all fun v => granted.any (Value.same · v)) = true
    · rw [if_pos hall, hasked, ok_bind]
      exact ⟨_, rfl, rfl, rfl, fun _ => ⟨hne, hknown, List.all_eq_true.mp hall⟩, fun _ => rfl⟩
    · rw [if_neg hall, hasked, ok_bind, hheld, ok_bind]
      refine ⟨_, rfl, rfl, rfl, ?_⟩
      exact ⟨fun h => Verdict.noConfusion h, fun h => absurd (List.all_eq_true.mpr h.2.2) hall⟩
  · have hsub : ∀ v ∈ requested.filter fun v => !(m.levels.map Prod.fst).any (Value.same · v),
        v.IsText := fun v hv => hrequested v (List.mem_filter.mp hv).1
    obtain ⟨words, hwords⟩ := joined_of_isText hsub
    rw [if_pos (by simpa [List.isEmpty_iff] using hunknown), hwords, ok_bind]
    refine ⟨_, rfl, rfl, rfl, ?_⟩
    constructor
    · exact fun h => Verdict.noConfusion h
    · rintro ⟨-, hknown, -⟩
      refine absurd (List.filter_eq_nil_iff.mpr fun v hv => ?_) hunknown
      rw [hknown v hv]
      exact Bool.noConfusion

theorem answerPermission_eq (r : Registry) (role resource action : Value)
    (requested : List Value) :
    answerPermission r role resource action requested =
      r.lookUp role resource action (.ok (.deny (.permission action) (noResource resource)))
        (fun _ => .ok (.deny (.permission action) (noGrant role resource)))
        fun m found => answerFilter m action role found requested := rfl

/-- **Permission queries.**  An action is granted through all the levels asked for when levels
are held and each level asked for is known and held. -/
theorem answerPermission_of_held {found requested : List Value}
    (h : r.heldLevels role resource action = .ok found) (hfound : ∀ l ∈ found, l.IsText)
    (hrequested : ∀ l ∈ requested, l.IsText) :
    ∃ f, answerPermission r role resource action requested = .ok f ∧
      f.subject = .permission action ∧ f.answer = .granted ∧
      (f.verdict = .allow ↔ found ≠ [] ∧ (∀ v ∈ requested, r.KnowsLevel resource v) ∧
        ∀ v ∈ requested, found.any (Value.same · v) = true) := by
  rw [answerPermission_eq]
  rcases lookUp_of_held h with ⟨rfl, hnone | ⟨m, hnone⟩⟩ | ⟨m, hdef, hanswer⟩
  · rw [hnone]
    exact ⟨_, rfl, rfl, rfl, fun h => Verdict.noConfusion h, fun h => absurd rfl h.1⟩
  · rw [hnone]
    exact ⟨_, rfl, rfl, rfl, fun h => Verdict.noConfusion h, fun h => absurd rfl h.1⟩
  · rw [hanswer]
    obtain ⟨f, hf, hsubject, hgranted, hverdict⟩ :=
      answerFilter_spec m action role hfound hrequested
    refine ⟨f, hf, hsubject, hgranted, ?_⟩
    rw [hverdict]
    refine and_congr_right fun _ => and_congr_left fun _ => forall₂_congr fun v _ => ?_
    exact (Registry.knowsLevel_iff hdef).symm

/-! ## 2. Levels -/

/-- The answer to a query of levels once the levels are known. -/
def foundLevels (action : Value) (found : List Value) : Except Fault Finding := do
  if found.isEmpty then
    return .nothing (.levels action none)
      ("No access levels found for action '" ++ action.plain ++ "'")
  let names ← joined found
  return ⟨.levels action (some found), .allow, "Access levels found: " ++ names,
    .levels (some found)⟩

theorem answerLevels_eq (r : Registry) (role resource action : Value) :
    answerLevels r role resource action =
      r.lookUp role resource action (.ok (.nothing (.levels action none) (noResource resource)))
        (fun _ => .ok (.nothing (.levels action none) (noGrant role resource)))
        fun _ found => foundLevels action found := rfl

/-- **Queries of levels.**  The levels held are the answer; to hold none is an answer too. -/
theorem answerLevels_of_held {found : List Value}
    (h : r.heldLevels role resource action = .ok found) (hfound : ∀ l ∈ found, l.IsText) :
    ∃ f, answerLevels r role resource action = .ok f ∧
      ((found ≠ [] ∧ f.verdict = .allow ∧ f.subject = .levels action (some found) ∧
          f.answer = .levels (some found)) ∨
        (found = [] ∧ f.verdict = .deny ∧ f.subject = .levels action none ∧
          f.answer = .levels none)) := by
  rw [answerLevels_eq]
  rcases lookUp_of_held h with ⟨rfl, hnone | ⟨m, hnone⟩⟩ | ⟨m, -, hanswer⟩
  · rw [hnone]
    exact ⟨_, rfl, Or.inr ⟨rfl, rfl, rfl, rfl⟩⟩
  · rw [hnone]
    exact ⟨_, rfl, Or.inr ⟨rfl, rfl, rfl, rfl⟩⟩
  · rw [hanswer, foundLevels]
    by_cases hempty : found.isEmpty = true
    · rw [if_pos hempty]
      exact ⟨_, rfl, Or.inr ⟨List.isEmpty_iff.mp hempty, rfl, rfl, rfl⟩⟩
    · obtain ⟨words, hwords⟩ := joined_of_isText hfound
      rw [if_neg hempty, hwords, ok_bind]
      exact ⟨_, rfl, Or.inl ⟨fun hnil => hempty (List.isEmpty_iff.mpr hnil), rfl, rfl, rfl⟩⟩

/-! ## 3. Relationships -/

/-- Relationship queries between texts always find an answer. -/
theorem answerRelationship_of_texts {relationship : Value} (hrole : role.IsText)
    (hres : resource.IsProperName) (hheld : relationship.IsText) :
    ∃ f, answerRelationship r role resource relationship = .ok f ∧
      f.subject = .relationship relationship ∧ f.answer = .granted := by
  obtain ⟨s, hs, hblank⟩ := hres
  rw [answerRelationship, r.resourceDefinition_of_text? hs hblank, ok_bind]
  cases r.metadata? s with
  | none => exact ⟨_, rfl, rfl, rfl⟩
  | some m =>
    simp only [grantFor?_of_isText m hrole, ok_bind]
    cases role.text?.bind fun s => m.grants.lookup s with
    | none => exact ⟨_, rfl, rfl, rfl⟩
    | some g =>
      simp only [Value.requireElement_of_isText hheld, ok_bind]
      split
      · exact ⟨_, rfl, rfl, rfl⟩
      · exact ⟨_, rfl, rfl, rfl⟩

/-! ## 4. Instances -/

/-- A level that accepts is one of those tried, and its predicate said so. -/
theorem accepted_of_tryLevels {m : Metadata} {inst level : Value} {levels : List Value}
    (h : (tryLevels i m resource context inst levels).2 = .accepted level) :
    level ∈ levels ∧ ∃ l v, Value.find? level m.levels = some l ∧
      i.evaluate l.fn [context, inst] = .ok v ∧ v.truthy = true := by
  induction levels with
  | nil => cases h
  | cons first rest ih =>
    rw [tryLevels] at h
    cases hfind : Value.find? first m.levels with
    | none =>
      rw [hfind] at h
      exact ⟨List.mem_cons_of_mem _ (ih h).1, (ih h).2⟩
    | some l =>
      simp only [hfind] at h
      cases heval : i.evaluate l.fn [context, inst] with
      | error e =>
        simp only [heval] at h
        cases h
      | ok v =>
        simp only [heval] at h
        by_cases hv : v.truthy = true
        · simp only [if_pos hv] at h
          cases h
          exact ⟨List.mem_cons_self .., l, v, hfind, heval, hv⟩
        · simp only [if_neg hv] at h
          exact ⟨List.mem_cons_of_mem _ (ih h).1, (ih h).2⟩

/-- Trying levels calls predicates of the rulebook only. -/
theorem ofPredicate_of_mem_tryLevels {name : String} {m : Metadata}
    (hm : r.metadata? name = some m) {inst : Value} {levels : List Value} :
    ∀ e ∈ (tryLevels i m resource context inst levels).1, e.OfPredicate r := by
  induction levels with
  | nil =>
    intro e he
    cases he
  | cons level rest ih =>
    rw [tryLevels]
    cases hfind : Value.find? level m.levels with
    | none => exact ih
    | some l =>
      obtain ⟨k, hk, -⟩ := Value.mem_of_find? hfind
      have hcall : (Event.called l.fn).OfPredicate r := Or.inr ⟨name, m, hm, (k, l), hk, rfl⟩
      simp only
      cases i.evaluate l.fn [context, inst] with
      | error f =>
        simp only [List.forall_mem_cons]
        exact ⟨hcall, Event.ofPredicate_predicateLine r _ f, by simp⟩
      | ok v =>
        by_cases hv : v.truthy = true
        · simp only [if_pos hv, List.forall_mem_cons]
          exact ⟨hcall, by simp⟩
        · simp only [if_neg hv, List.forall_mem_cons]
          exact ⟨hcall, ih⟩

/-- The levels held decide how an instance query goes on: an error of the look-up ends it, no
level is a denial, and otherwise the levels are tried. -/
theorem answerInstance_cases (i : Interpretation) (r : Registry)
    (context role resource action inst : Value) :
    (∃ e, r.heldLevels role resource action = .error e ∧
      answerInstance i r context role resource action inst = ⟨[], .error e⟩) ∨
    (∃ id message, r.heldLevels role resource action = .ok [] ∧
      answerInstance i r context role resource action inst =
        ⟨[], .ok (.deny (.instanceOf action id) message)⟩) ∨
    (∃ m found, r.heldLevels role resource action = .ok found ∧ found ≠ [] ∧
      r.resourceDefinition resource = .ok (some m) ∧
      answerInstance i r context role resource action inst =
        ⟨(tryLevels i m resource context inst found).1,
          concludeInstance (.instanceOf action (readIdentifier inst m.identifier)) found
            (tryLevels i m resource context inst found).2⟩) := by
  rw [answerInstance, Registry.heldLevels]
  cases hdef : r.resourceDefinition resource with
  | error e => exact Or.inl ⟨e, rfl, rfl⟩
  | ok defined =>
    rw [ok_bind]
    cases defined with
    | none => exact Or.inr (Or.inl ⟨.null, _, rfl, rfl⟩)
    | some m =>
      simp only
      cases hgrant : grantFor? m role with
      | error e => exact Or.inl ⟨e, rfl, rfl⟩
      | ok granted =>
        rw [ok_bind]
        cases granted with
        | none => exact Or.inr (Or.inl ⟨_, _, rfl, rfl⟩)
        | some g =>
          simp only
          cases hfound : levelsFor g action with
          | error e => exact Or.inl ⟨e, rfl, rfl⟩
          | ok found =>
            cases found with
            | nil => exact Or.inr (Or.inl ⟨_, _, rfl, rfl⟩)
            | cons level rest =>
              exact Or.inr (Or.inr ⟨m, level :: rest, rfl, List.cons_ne_nil _ _, rfl, rfl⟩)

/-- **Instance queries.**  Something is always found, and an allowance is in the name of one of
the levels held, one whose predicate accepted the instance. -/
theorem answerInstance_of_held {inst : Value} {found : List Value}
    (h : r.heldLevels role resource action = .ok found) (hfound : ∀ l ∈ found, l.IsText) :
    ∃ f, (answerInstance i r context role resource action inst).outcome = .ok f ∧
      (∃ id, f.subject = .instanceOf action id) ∧ f.answer = .granted ∧
      (f.verdict = .allow → ∃ level ∈ found,
        f.message = "Access granted through access level '" ++ level.plain ++ "'" ∧
        ∃ m l v, r.resourceDefinition resource = .ok (some m) ∧
          Value.find? level m.levels = some l ∧ i.evaluate l.fn [context, inst] = .ok v ∧
          v.truthy = true) := by
  rcases answerInstance_cases i r context role resource action inst with
    ⟨e, he, -⟩ | ⟨id, message, -, hrun⟩ | ⟨m, found', hheld, -, hdef, hrun⟩
  · rw [h] at he
    cases he
  · rw [hrun]
    exact ⟨_, rfl, ⟨id, rfl⟩, rfl, fun hallow => Verdict.noConfusion hallow⟩
  · rw [h] at hheld
    cases hheld
    rw [hrun]
    cases htried : (tryLevels i m resource context inst found).2 with
    | accepted level =>
      obtain ⟨hlevel, l, v, hl, hv, htruthy⟩ := accepted_of_tryLevels htried
      exact ⟨_, rfl, ⟨_, rfl⟩, rfl, fun _ => ⟨level, hlevel, rfl, m, l, v, hdef, hl, hv, htruthy⟩⟩
    | errored level kind =>
      exact ⟨_, rfl, ⟨_, rfl⟩, rfl, fun hallow => Verdict.noConfusion hallow⟩
    | none =>
      obtain ⟨words, hwords⟩ := joined_of_isText hfound
      simp only [concludeInstance, hwords, ok_bind]
      exact ⟨_, rfl, ⟨_, rfl⟩, rfl, fun hallow => Verdict.noConfusion hallow⟩

/-- If the resource is defined, the record of an instance query has the id of the instance, whatever
comes of the query. -/
theorem subject_of_answerInstance_of_defined {inst : Value} {f : Finding} {m : Metadata}
    (hdef : r.resourceDefinition resource = .ok (some m))
    (h : (answerInstance i r context role resource action inst).outcome = .ok f) :
    f.subject = .instanceOf action (readIdentifier inst m.identifier) := by
  simp only [answerInstance, hdef] at h
  split at h
  · cases h
  · cases h
    rfl
  · split at h
    · cases h
    · cases h
      rfl
    · rename_i found _ hfound
      cases htried : (tryLevels i m resource context inst found).2 with
      | accepted level =>
        rw [htried] at h
        cases h
        rfl
      | errored level kind =>
        rw [htried] at h
        cases h
        rfl
      | none =>
        rw [htried] at h
        obtain ⟨names, -, h⟩ := bind_eq_ok_iff.mp h
        cases h
        rfl

/-- The id in the record of an instance query is that of the instance, or there is none because the
resource is not defined; then the query is denied. -/
theorem resourceId_of_answerInstance {inst : Value} {f : Finding}
    (h : (answerInstance i r context role resource action inst).outcome = .ok f) :
    ∃ id, f.subject = .instanceOf action id ∧ (id = .null ∧ f.verdict = .deny ∨
      ∃ m, r.resourceDefinition resource = .ok (some m) ∧
        id = readIdentifier inst m.identifier) := by
  cases hdef : r.resourceDefinition resource with
  | error e =>
    simp only [answerInstance, hdef] at h
    cases h
  | ok defined =>
    cases defined with
    | none =>
      simp only [answerInstance, hdef] at h
      cases h
      exact ⟨_, rfl, Or.inl ⟨rfl, rfl⟩⟩
    | some m =>
      exact ⟨_, subject_of_answerInstance_of_defined hdef h, Or.inr ⟨m, rfl, rfl⟩⟩

/-- An allowance is about the instance: the record has its id. -/
theorem subject_of_answerInstance {inst : Value} {f : Finding}
    (h : (answerInstance i r context role resource action inst).outcome = .ok f)
    (hallow : f.verdict = .allow) : ∃ m, r.resourceDefinition resource = .ok (some m) ∧
      f.subject = .instanceOf action (readIdentifier inst m.identifier) := by
  obtain ⟨id, hsubject, ⟨-, hdenied⟩ | ⟨m, hdef, rfl⟩⟩ := resourceId_of_answerInstance h
  · rw [hdenied] at hallow
    cases hallow
  · exact ⟨m, hdef, hsubject⟩

/-- Answering an instance query calls predicates only. -/
theorem ofPredicate_of_mem_answerInstance {inst : Value} :
    ∀ e ∈ (answerInstance i r context role resource action inst).events, e.OfPredicate r := by
  rcases answerInstance_cases i r context role resource action inst with
    ⟨e, -, hrun⟩ | ⟨id, message, -, hrun⟩ | ⟨m, found, -, -, hdef, hrun⟩
  · rw [hrun]
    simp
  · rw [hrun]
    simp
  · rw [hrun]
    obtain ⟨name, hname⟩ := metadata?_of_resourceDefinition hdef
    exact ofPredicate_of_mem_tryLevels hname

end AccessControl
