import AccessControl.Proofs.Decision.Agreement

/-!
# Decisions that cannot be put into words

A registry accepts a rulebook whose levels are named by values of any kind: a level may be called
by a number, as long as the grants call it by the same number.  Roles and resources are held to be
texts, but nobody looks at the names of levels.  The words of a record, on the other hand, are
joined from the names of the levels held, and only texts can be joined.

So there are decisions that come to no end, not because of what is asked but because of how a level
is called.  Which are they?

## When the levels are spelled out

Not every answer lists the levels held (`Query.Spells`).

* A query of levels lists them.
* A permission query lists them if no levels are asked for, and if those that are asked for are all
  known but not all held.  If they are all held, or if one of them is unknown, only those that are
  asked for are listed, and these are texts.
* An instance query lists them if each of them has been tried and none has accepted.
* A relationship query has no levels to list.

`Wording` says that an answer is either put together with all of the levels held or does not depend
on them, and every question that is asked in texts is answered in this way (`wording_find`).  The
join fails exactly if one of the names is no text (`joined_cases`), so a decision comes to its end
unless the levels are spelled out and one of them is no text: `decided_iff`.
-/

namespace AccessControl

variable {i : Interpretation} {r : Registry} {context role resource action : Value} {q : Query}

/-! ## 1. Joining -/

/-- A list with a name that is no text cannot be joined. -/
theorem exists_joinTexts_error {names : List Value} (h : ∃ v ∈ names, ¬ v.IsText) (place : Nat) :
    ∃ failed kind, joinTexts place names = .error (.notJoinable failed kind) := by
  induction names generalizing place with
  | nil =>
    obtain ⟨v, hv, -⟩ := h
    cases hv
  | cons first rest ih =>
    rw [joinTexts]
    cases hfirst : first.text? with
    | none => exact ⟨place, _, rfl⟩
    | some s =>
      have hrest : ∃ v ∈ rest, ¬ v.IsText := by
        obtain ⟨v, hv, htext⟩ := h
        rcases List.mem_cons.mp hv with rfl | hv
        · exact absurd ⟨s, hfirst⟩ htext
        · exact ⟨v, hv, htext⟩
      obtain ⟨failed, kind, hfailed⟩ := ih hrest (place + 1)
      exact ⟨failed, kind, by rw [hfailed]; rfl⟩

/-- **Names can be joined** exactly if all of them are texts. -/
theorem joined_cases (names : List Value) :
    ((∀ v ∈ names, v.IsText) ∧ ∃ words, joined names = .ok words) ∨
      (∃ v ∈ names, ¬ v.IsText) ∧
        ∃ place kind, joined names = .error (.misuse (.notJoinable place kind)) := by
  by_cases htexts : ∀ v ∈ names, v.IsText
  · exact Or.inl ⟨htexts, joined_of_isText htexts⟩
  · obtain ⟨v, hv⟩ := Classical.not_forall.mp htexts
    have hodd : ∃ v ∈ names, ¬ v.IsText := ⟨v, Classical.not_imp.mp hv⟩
    obtain ⟨place, kind, hfailed⟩ := exists_joinTexts_error hodd 0
    exact Or.inr ⟨hodd, place, kind, by rw [joined, hfailed]⟩

/-! ## 2. Answers and their words -/

/-- The answer is put together with the names of all levels held, or it is there whatever they
are called.  The first happens if the levels are to be spelled out, unless there are none. -/
inductive Wording (found : List Value) (spells : Prop) : Except Fault Finding → Prop
  | spelled (hspells : spells) (finding : String → Finding) :
      Wording found spells (do
        let words ← joined found
        return finding words)
  | silent (hsilent : spells → found = []) (f : Finding) : Wording found spells (.ok f)

/-- An answer that is spelled out in words is there exactly if all the names are texts. -/
theorem Wording.cases {found : List Value} {spells : Prop} {x : Except Fault Finding}
    (h : Wording found spells x) :
    (¬ (spells ∧ ∃ v ∈ found, ¬ v.IsText) ∧ ∃ f, x = .ok f) ∨
      (spells ∧ ∃ v ∈ found, ¬ v.IsText) ∧
        ∃ place kind, x = .error (.misuse (.notJoinable place kind)) := by
  cases h with
  | spelled hspells finding =>
    rcases joined_cases found with ⟨htexts, words, hwords⟩ | ⟨hodd, place, kind, hfailed⟩
    · refine Or.inl ⟨?_, finding words, by rw [hwords]; rfl⟩
      rintro ⟨-, v, hv, hodd⟩
      exact hodd (htexts v hv)
    · exact Or.inr ⟨⟨hspells, hodd⟩, place, kind, by rw [hfailed]; rfl⟩
  | silent hsilent f =>
    refine Or.inl ⟨?_, f, rfl⟩
    rintro ⟨hspells, v, hv, -⟩
    rw [hsilent hspells] at hv
    cases hv

/-- The filter of a permission query spells the levels held out if none are asked for, or if some
are missing although all are known. -/
theorem wording_answerFilter (m : Metadata) (action role : Value) (granted : List Value)
    {requested : List Value} (hrequested : ∀ l ∈ requested, l.IsText) :
    Wording granted
      (requested = [] ∨ (∀ v ∈ requested, (m.levels.map Prod.fst).any (Value.same · v) = true) ∧
        ∃ v ∈ requested, granted.any (Value.same · v) = false)
      (answerFilter m action role granted requested) := by
  rw [answerFilter]
  by_cases hempty : granted.isEmpty = true
  · rw [if_pos hempty]
    exact .silent (fun _ => List.isEmpty_iff.mp hempty) _
  rw [if_neg hempty]
  obtain ⟨askedWords, hasked⟩ := joined_of_isText hrequested
  by_cases hnone : requested.isEmpty = true
  · rw [if_pos hnone]
    exact .spelled (Or.inl (List.isEmpty_iff.mp hnone)) _
  have hsome : requested ≠ [] := fun h => hnone (List.isEmpty_iff.mpr h)
  rw [if_neg hnone, unknownNames_of_isText _ hrequested, ok_bind]
  by_cases hunknown :
      (requested.filter fun v => !(m.levels.map Prod.fst).any (Value.same · v)) = []
  · have hknown : ∀ v ∈ requested, (m.levels.map Prod.fst).any (Value.same · v) = true := by
      intro v hv
      simpa using List.filter_eq_nil_iff.mp hunknown v hv
    rw [hunknown, if_neg (by simp)]
    by_cases hall : (requested.all fun v => granted.any (Value.same · v)) = true
    · rw [if_pos hall, hasked, ok_bind]
      refine .silent ?_ _
      rintro (hnil | ⟨-, v, hv, hmissing⟩)
      · exact absurd hnil hsome
      · rw [List.all_eq_true.mp hall v hv] at hmissing
        cases hmissing
    · rw [if_neg hall, hasked, ok_bind]
      refine .spelled (Or.inr ⟨hknown, ?_⟩) _
      simpa [List.all_eq_true] using hall
  · have hsub : ∀ v ∈ requested.filter fun v => !(m.levels.map Prod.fst).any (Value.same · v),
        v.IsText := fun v hv => hrequested v (List.mem_filter.mp hv).1
    obtain ⟨words, hwords⟩ := joined_of_isText hsub
    rw [if_pos (by simpa [List.isEmpty_iff] using hunknown), hwords, ok_bind]
    refine .silent ?_ _
    rintro (hnil | ⟨hknown, -⟩)
    · exact absurd hnil hsome
    · refine absurd (List.filter_eq_nil_iff.mpr fun v hv => ?_) hunknown
      rw [hknown v hv]
      exact Bool.noConfusion

/-! ## 3. The four questions -/

/-- The levels that decide a question; a relationship query has none. -/
def Query.heldLevels (q : Query) (r : Registry) (context : Value) : Except Fault (List Value) :=
  match q with
  | .permission resource action _ => r.contextLevels context resource action
  | .levels resource action => r.contextLevels context resource action
  | .relationship _ _ => .ok []
  | .instanceOf resource action _ => r.contextLevels context resource action

/-- The words for the answer list the levels held. -/
def Query.Spells (q : Query) (i : Interpretation) (r : Registry) (context : Value)
    (found : List Value) : Prop :=
  match q with
  | .permission resource _ requested =>
    requested = [] ∨ (∀ l ∈ requested, r.KnowsLevel resource.name l) ∧
      ∃ l ∈ requested, found.any (Value.same · l) = false
  | .levels _ _ => True
  | .relationship _ _ => False
  | .instanceOf resource _ inst => ∃ m, r.resourceDefinition resource.name = .ok (some m) ∧
      (tryLevels i m resource.name context inst found).2 = .none

/-- A question that looks the levels up is put into words as it answers from them. -/
theorem wording_lookUp {found : List Value} {spells : Prop} {noRulebook : Finding}
    {noGrant : Metadata → Finding} {answer : Metadata → List Value → Except Fault Finding}
    (h : r.heldLevels role resource action = .ok found)
    (hanswer : ∀ m, r.resourceDefinition resource = .ok (some m) →
      Wording found spells (answer m found)) :
    Wording found spells
      (r.lookUp role resource action (.ok noRulebook) (fun m => .ok (noGrant m)) answer) := by
  rcases lookUp_of_held h with ⟨rfl, hnone | ⟨m, hnone⟩⟩ | ⟨m, hdef, hfound⟩
  · rw [hnone]
    exact .silent (fun _ => rfl) _
  · rw [hnone]
    exact .silent (fun _ => rfl) _
  · rw [hfound]
    exact hanswer m hdef

theorem wording_foundLevels (action : Value) (found : List Value) :
    Wording found True (foundLevels action found) := by
  rw [foundLevels]
  by_cases hempty : found.isEmpty = true
  · rw [if_pos hempty]
    exact .silent (fun _ => List.isEmpty_iff.mp hempty) _
  · rw [if_neg hempty]
    exact .spelled trivial _

theorem wording_answerInstance {found : List Value} (i : Interpretation) (context inst : Value)
    (h : r.heldLevels role resource action = .ok found) :
    Wording found (∃ m, r.resourceDefinition resource = .ok (some m) ∧
        (tryLevels i m resource context inst found).2 = .none)
      (answerInstance i r context role resource action inst).outcome := by
  rcases answerInstance_cases i r context role resource action inst with
    ⟨e, he, -⟩ | ⟨id, message, hheld, hrun⟩ | ⟨m, found', hheld, -, hdef, hrun⟩
  · rw [h] at he
    cases he
  · rw [h] at hheld
    cases hheld
    rw [hrun]
    exact .silent (fun _ => rfl) _
  · rw [h] at hheld
    cases hheld
    have htried : ∀ outcome, (tryLevels i m resource context inst found).2 = outcome →
        outcome ≠ .none → (∃ m, r.resourceDefinition resource = .ok (some m) ∧
          (tryLevels i m resource context inst found).2 = .none) → found = [] := by
      rintro outcome houtcome hne ⟨m', hm', hnone⟩
      rw [hdef] at hm'
      cases hm'
      exact absurd (houtcome.symm.trans hnone) hne
    rw [hrun]
    cases houtcome : (tryLevels i m resource context inst found).2 with
    | accepted level => exact .silent (htried _ houtcome (by simp)) _
    | errored level kind => exact .silent (htried _ houtcome (by simp)) _
    | none => exact .spelled ⟨m, hdef, houtcome⟩ _

/-- **Every question that is asked in texts** finds an answer, unless it has to spell out levels
that are no texts. -/
theorem wording_find (hrole : ((contextRole? context).getD .null).IsText) (hq : q.InTexts) :
    ∃ found, q.heldLevels r context = .ok found ∧
      Wording found (q.Spells i r context found)
        (q.find i r context ((contextRole? context).getD .null)).outcome := by
  cases q with
  | permission resource action requested =>
    obtain ⟨hres, haction, hrequested⟩ := hq
    obtain ⟨found, hheld⟩ := heldLevels_of_texts (r := r) hrole hres.name haction.name
    refine ⟨found, hheld, wording_lookUp hheld fun m hdef => ?_⟩
    have hwording := wording_answerFilter m action.name ((contextRole? context).getD .null) found
      hrequested
    simp only [← Registry.knowsLevel_iff hdef] at hwording
    exact hwording
  | levels resource action =>
    obtain ⟨hres, haction⟩ := hq
    obtain ⟨found, hheld⟩ := heldLevels_of_texts (r := r) hrole hres.name haction.name
    exact ⟨found, hheld, wording_lookUp hheld fun _ _ => wording_foundLevels _ _⟩
  | relationship resource held =>
    obtain ⟨f, hf, -⟩ := answerRelationship_of_texts (r := r) hrole hq.1.name hq.2.name
    refine ⟨[], rfl, ?_⟩
    rw [Query.find, Run.ofExcept, hf]
    exact .silent (fun h => h.elim) f
  | instanceOf resource action inst =>
    obtain ⟨hres, haction⟩ := hq
    obtain ⟨found, hheld⟩ := heldLevels_of_texts (r := r) hrole hres.name haction.name
    exact ⟨found, hheld, wording_answerInstance i context inst hheld⟩

/-! ## 4. Decisions that come to their end -/

/-- The names in which a question is asked, beside that of the resource. -/
def Query.words : Query → List Value
  | .permission _ action requested => action :: requested
  | .levels _ action => [action]
  | .relationship _ held => [held]
  | .instanceOf _ action _ => [action]

/-- The question is asked in texts, about a resource that is declared. -/
structure Query.Posed (q : Query) (r : Registry) : Prop where
  declared : ∃ name, q.resource = .text name ∧ r.hasResource name = true
  texts : ∀ v ∈ q.words, v.IsText

/-- A record is made, and the decision ends with an answer, or with what one of the refusals makes
of this record. -/
def Query.Decided (q : Query) (i : Interpretation) (r : Registry) (context : Value) : Prop :=
  ∃ a, q.record? i r context = some a ∧
    ((∃ answer, (q.decide i r context).outcome = .ok answer) ∨
      (q.decide i r context).outcome = .error (i.refuse r.authnRefusal a) ∨
      (q.decide i r context).outcome = .error (i.refuse r.authzRefusal a))

/-- The context counts, and the words for the answer list the levels held, of which one is no
text. -/
structure Query.Unspeakable (q : Query) (i : Interpretation) (r : Registry) (context : Value) :
    Prop where
  accepts : r.Accepts i context
  spelled : ∃ found, q.heldLevels r context = .ok found ∧ q.Spells i r context found ∧
    ∃ l ∈ found, ¬ l.IsText

/-- Names of resources that are declared are proper, so a question about one of them can be
asked. -/
theorem Query.Posed.inTexts (hq : q.Posed r) (hr : r.ProperlyNamed) : q.InTexts := by
  obtain ⟨⟨name, hresource, hdeclared⟩, htexts⟩ := hq
  have hproper : ∀ v : Value, v.name = .text name → v.IsProperName := fun v hv =>
    ⟨name, Value.text?_of_name hv, hr name hdeclared⟩
  cases q with
  | permission resource action requested =>
    rw [Query.words, List.forall_mem_cons] at htexts
    exact ⟨hproper resource hresource, htexts⟩
  | levels resource action =>
    exact ⟨hproper resource hresource, htexts action (List.mem_singleton_self _)⟩
  | relationship resource held =>
    exact ⟨hproper resource hresource, htexts held (List.mem_singleton_self _)⟩
  | instanceOf resource action inst =>
    exact ⟨hproper resource hresource, htexts action (List.mem_singleton_self _)⟩

/-- In a coherent registry the levels listed are texts if the levels declared are. -/
theorem Registry.Coherent.listsTexts (hr : r.Coherent)
    (hlevels : ∀ name m, r.metadata? name = some m → ∀ l ∈ m.levels, l.1.IsText) :
    r.ListsTexts := by
  intro name m hm g hg p hp l hl
  obtain ⟨k, hk, hsame⟩ := List.any_eq_true.mp ((hr name m hm g hg).levels p hp l hl)
  obtain ⟨level, hlevel, rfl⟩ := List.mem_map.mp hk
  exact Value.isText_of_same (hlevels name m hm level hlevel) hsame

/-- A role that is given as a text is a text. -/
theorem isText_of_contextRole?_eq_text {name : String}
    (h : contextRole? context = some (.text name)) :
    ∀ role, contextRole? context = some role → role.IsText := by
  intro role hrole
  rw [h] at hrole
  cases hrole
  exact Value.isText_text name

/-- With a sink that works, a record is followed by an answer or by a refusal. -/
theorem decided_of_record? (hsink : r.SinkWorks i) {a : Audit}
    (hrecord : q.record? i r context = some a) : q.Decided i r context := by
  refine ⟨a, hrecord, ?_⟩
  obtain ⟨asked, -, hcourse⟩ := exists_course q i r context
  generalize q.decide i r context = run at hcourse
  cases hcourse with
  | unanswered e _ hnone =>
    rw [hrecord] at hnone
    cases hnone
  | recorded a' answer ending hrecord' hending =>
    rw [hrecord] at hrecord'
    cases hrecord'
    cases hending with
    | sinkFailed e hlog hfailed =>
      rw [hsink _ hlog] at hfailed
      cases hfailed
    | unauthenticated => exact Or.inr (Or.inl rfl)
    | unauthorized => exact Or.inr (Or.inr rfl)
    | answered => exact Or.inl ⟨answer, rfl⟩

/-- A question that finds nothing ends with what has gone wrong, and there is no record. -/
theorem decide_of_find_error (hc : r.Accepts i context) {e : Fault}
    (he : (q.find i r context ((contextRole? context).getD .null)).outcome = .error e) :
    q.record? i r context = none ∧ (q.decide i r context).outcome = .error e := by
  obtain ⟨asked, -, hcourse⟩ := exists_course q i r context
  generalize q.decide i r context = run at hcourse
  have hnone : q.record? i r context = none := by
    simp only [Query.record?, screen_eq_none_iff.mpr hc, he]
  refine ⟨hnone, ?_⟩
  cases hcourse with
  | unanswered e' _ _ hfind =>
    rw [he] at hfind
    cases hfind
    rfl
  | recorded a answer ending hrecord =>
    rw [hnone] at hrecord
    cases hrecord

/-- The levels that decide a question are texts if the rulebooks list texts. -/
theorem Query.isText_of_heldLevels (hr : r.ListsTexts) {found : List Value}
    (h : q.heldLevels r context = .ok found) : ∀ l ∈ found, l.IsText := by
  cases q with
  | relationship resource held =>
    cases h
    simp
  | _ => exact AccessControl.isText_of_heldLevels hr h

/-- A question either is decided, or comes to nothing because of a level that is no text. -/
theorem decided_or_unspeakable (hr : r.ProperlyNamed) (hsink : r.SinkWorks i)
    (hrole : ∀ role, contextRole? context = some role → role.IsText) (hq : q.Posed r) :
    (¬ q.Unspeakable i r context ∧ q.Decided i r context) ∨
      q.Unspeakable i r context ∧ q.record? i r context = none ∧
        ∃ place kind, (q.decide i r context).outcome =
          .error (.misuse (.notJoinable place kind)) := by
  by_cases hc : r.Accepts i context
  · obtain ⟨role, hsome⟩ := Option.isSome_iff_exists.mp hc.hasRole
    have htext : ((contextRole? context).getD .null).IsText := by
      rw [hsome]
      exact hrole role hsome
    obtain ⟨found, hheld, hwording⟩ := wording_find (i := i) htext (hq.inTexts hr)
    rcases hwording.cases with ⟨hnone, f, hf⟩ | ⟨hspelled, place, kind, hfailed⟩
    · refine Or.inl ⟨?_, decided_of_record? hsink (record?_of_find hc hf)⟩
      rintro ⟨-, found', hheld', hspelled⟩
      rw [hheld] at hheld'
      cases hheld'
      exact hnone hspelled
    · obtain ⟨hrecord, hdecide⟩ := decide_of_find_error hc hfailed
      exact Or.inr ⟨⟨hc, found, hheld, hspelled⟩, hrecord, place, kind, hdecide⟩
  · -- an objection to the context is recorded before anything is looked up
    obtain ⟨why, hwhy⟩ := Option.ne_none_iff_exists'.mp fun h => hc (screen_eq_none_iff.mp h)
    have hrecord : q.record? i r context = some (why.audit q.bareSubject q.resource context) := by
      rw [Query.record?, hwhy]
    exact Or.inl ⟨fun h => hc h.accepts, decided_of_record? hsink hrecord⟩

/-- The rulebook of the application names its levels by texts. -/
theorem Rulebook.isText_of_level (logging : Bool) (name : String) (m : Metadata)
    (hm : (registry logging).metadata? name = some m) : ∀ l ∈ m.levels, l.1.IsText := by
  rw [eq_metadata_of_metadata? hm]
  intro l hl
  obtain ⟨level, -, rfl⟩ := List.mem_map.mp hl
  exact Value.isText_text level.name

/-- A rulebook with one level, which is called by a number. -/
def numbered : Definition where
  identifier := .text "id"
  actions := .list [.text "READ"]
  levels := .map [(.int 1, UserLevel.all.record)]
  relationships := .tuple []
  roles := .map [(Role.agent.member, .map
    [(.text "permissions", .map [(.text "READ", .list [.int 1])])])]
  model := .null

/-- The registry of the application's roles, with this rulebook. -/
def numberedRegistry : Registry :=
  { Rulebook.declared true with
    resources := [(Rulebook.userResource, none), ("Invoice", some
      { identifier := "id"
        actions := [.text "READ"]
        levels := [(.int 1, ⟨.rule .anyone, 0⟩)]
        relationships := []
        grants := [(Role.agent.name, ⟨[(.text "READ", [.int 1])], []⟩)] })]
    index := Role.all.map fun r => (r.name, if r = .agent then ["Invoice"] else []) }

/-- The rulebook is accepted. -/
theorem addResource_numbered :
    (Rulebook.declared true).addResource (.text "Invoice") numbered.toValue =
      .ok numberedRegistry := rfl

theorem reachable_numberedRegistry : numberedRegistry.Reachable := by
  have h := Registry.Reachable.step (.addResource (.text "Invoice") numbered.toValue)
    (.fromOptions (Rulebook.fromOptions_rootOptions true))
  rw [Registry.Command.apply, addResource_numbered] at h
  exact h

/-- The context of an agent. -/
def agentContext : Value :=
  .record .context [("user_id", .text "g1"), ("role", .text Role.agent.name), ("rank", .int 3),
    ("is_active", .bool true), ("assigned_users", .tuple [])]

/-- An agent asks for the levels of the one action. -/
def numberedLevels : Query := .levels (.text "Invoice") (.text "READ")

end AccessControl
