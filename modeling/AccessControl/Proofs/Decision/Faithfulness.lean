import AccessControl.Proofs.Decision.Wording
import AccessControl.Proofs.Registry.Declaration
import AccessControl.Proofs.Registry.Permanence

/-!
# Decisions are those of the definition

A resource is added with a definition, and from then on questions about it are answered from a table
that validation has made.  Nobody looks at the definition again.  Nevertheless the answers are those
that can be read off the definition, in whatever way it has been written (`declaration_kept`):

* A query of *levels* is answered with what the definition lists for the role and the action, in
  this order and with all repetitions; if it lists nothing, the answer is that there are none.
* A *relationship* is granted exactly if the definition declares it for the role.
* An *instance* is put to the functions that the definition declares under the names of the levels
  listed, one after the other, up to the first that accepts it or fails, and to no others.

Every question ends with a record, and a sink may fail to take it.  So what is stated is how the
decision goes on from the record (`Query.Ends`): with the answer, or with the error that the denial
is raised as.

## What is asked of names

A resource, a role, an action and a relationship are asked for by texts, and the definition names
its levels by texts; otherwise messages cannot be put together.  Texts may be members of
enumerations on both sides.

## A relationship that is lost

What counts as false in the place of the relationships of a role declares none.  The empty text
counts as false, but elsewhere it is a list with one name.  So a definition can declare a
relationship that is called by the empty text, write it as the one relationship of a role, and be
accepted, and yet the role does not have it: `relationship_lost`.
-/

namespace AccessControl

variable {i : Interpretation} {r r' s : Registry} {context resource : Value} {role : String}
  {d : Definition} {m : Metadata}

/-! ## 1. How a decision ends -/

/-- After these events the question is decided by a record, and goes on from there once the record
has been delivered. -/
def Query.Ends (q : Query) (i : Interpretation) (r : Registry) (context : Value)
    (before : List Event) (verdict : Verdict) (ending : Audit → Run Answer) : Prop :=
  ∃ a : Audit, a.result = verdict ∧ q.decide i r context =
    (Run.mk before (.ok ())).bind fun _ => (deliver i r a).bind fun _ => ending a

/-- Predicates that are asked about an instance one after the other, up to the first that accepts it
or fails: those that are called, and whether the last of them accepts. -/
def Interpretation.ask (i : Interpretation) (context inst : Value) :
    List Callable → List Callable × Bool
  | [] => ([], false)
  | f :: rest =>
    match i.evaluate f [context, inst] with
    | .error _ => ([f], false)
    | .ok v =>
      if v.truthy then ([f], true)
      else
        let after := i.ask context inst rest
        (f :: after.1, after.2)

/-- The function that was called, if one was. -/
def Event.callable? : Event → Option Callable
  | called f => some f
  | _ => none

/-- A finding ends the question. -/
theorem ends_of_find {q : Query} {tried : List Event} {f : Finding} (hc : r.Accepts i context)
    (hrole : contextRole? context = some (.text role))
    (hfind : q.find i r context (.text role) = ⟨tried, .ok f⟩) :
    q.Ends i r context ((screen i r context).1 ++ tried) f.verdict fun a =>
      if q.raisesDenial && f.verdict == .deny then refuse i r.authzRefusal a
      else Run.pure f.answer := by
  have hscreen := screen_eq_none_iff.mpr hc
  rcases hs : screen i r context with ⟨events, objection⟩
  rw [hs] at hscreen
  cases hscreen
  have hallowed : (!(f.audit q.resource context).allowed) = (f.verdict == .deny) := by
    rw [Audit.allowed, Finding.audit]
    cases f.verdict <;> rfl
  refine ⟨f.audit q.resource context, rfl, ?_⟩
  simp only [Query.decide, hs, hrole, Option.getD_some, hfind, Finding.conclude, hallowed,
    Run.bind, List.append_assoc]

/-! ## 2. What is found -/

/-- The levels that a role holds are those that the definition lists. -/
theorem heldLevels_of_grants {name action : String} {asked actionValue : Value}
    {names : List Value} (hread : d.ReadAs m) (hm : r.metadata? name = some m)
    (hblank : Text.blank name = false) (hasked : asked.text? = some name)
    (haction : actionValue.text? = some action) (hgrants : d.Grants role action names) :
    r.heldLevels (.text role) asked actionValue = .ok names := by
  have hnames := (hread.levels role action actionValue names haction).mp hgrants
  rw [Registry.heldLevels, r.resourceDefinition_of_text? hasked hblank, hm, ok_bind]
  simp only [grantFor?_of_isText m (Value.isText_text role), ok_bind, Value.text?_text,
    Option.bind_some]
  cases hlookup : m.grants.lookup role with
  | none =>
    rw [hlookup] at hnames
    exact congrArg Except.ok hnames
  | some g =>
    rw [hlookup] at hnames
    simp only [levelsFor, Value.requireKey_of_isText ⟨action, haction⟩, ok_bind]
    exact congrArg Except.ok hnames

/-- These are the functions that the definition declares under the names of these levels. -/
def Definition.Functions (d : Definition) : List Value → List Callable → Prop :=
  List.Forall₂ fun level f => ∃ name, level.text? = some name ∧ d.functionOf? name = some f

/-- Levels that a role holds are texts, and the rulebook has each of them. -/
theorem known_of_heldLevels {asked action : Value} {names : List Value} (hcoherent : m.Coherent)
    (htexts : ∀ l ∈ m.levels, l.1.IsText) (hdef : r.resourceDefinition asked = .ok (some m))
    (hheld : r.heldLevels (.text role) asked action = .ok names) :
    ∀ level ∈ names, level.IsText ∧ ∃ l, Value.find? level m.levels = some l := by
  intro level hlevel
  obtain ⟨-, m', g, a, -, hdef', hg, ha⟩ := exists_listed_of_heldLevels hheld hlevel
  rw [hdef] at hdef'
  cases hdef'
  have hknown := (hcoherent g hg).levels (a, names) ha level hlevel
  obtain ⟨key, hkey, hsame⟩ := List.any_eq_true.mp hknown
  obtain ⟨l, hl, rfl⟩ := List.mem_map.mp hkey
  exact ⟨Value.isText_of_same (htexts l hl) hsame, Value.exists_find?_of_any hknown⟩

/-- A function is declared under the name of every level that is known. -/
theorem exists_functions (hread : d.ReadAs m) {names : List Value}
    (hknown : ∀ level ∈ names, level.IsText ∧ ∃ l, Value.find? level m.levels = some l) :
    ∃ fns, d.Functions names fns := by
  induction names with
  | nil => exact ⟨[], .nil⟩
  | cons level rest ih =>
    rw [List.forall_mem_cons] at hknown
    obtain ⟨⟨⟨name, hname⟩, l, hl⟩, hrest⟩ := hknown
    obtain ⟨fns, hfns⟩ := ih hrest
    refine ⟨l.fn :: fns, .cons ⟨name, hname, ?_⟩ hfns⟩
    rw [← hread.functions name level hname, hl]
    rfl

/-- **Levels are tried through the functions declared for them.** -/
theorem tryLevels_of_functions (i : Interpretation) (context asked inst : Value)
    (hread : d.ReadAs m) {names : List Value} {fns : List Callable} (h : d.Functions names fns) :
    (tryLevels i m asked context inst names).1.filterMap Event.callable? =
        (i.ask context inst fns).1 ∧
      ((i.ask context inst fns).2 = true ↔
        ∃ level, (tryLevels i m asked context inst names).2 = .accepted level) := by
  induction h with
  | nil => simp [tryLevels, Interpretation.ask]
  | @cons level f names fns hlevel _ ih =>
    obtain ⟨name, hname, hf⟩ := hlevel
    rw [← hread.functions name level hname, Option.map_eq_some_iff] at hf
    obtain ⟨l, hl, rfl⟩ := hf
    rw [tryLevels, hl, Interpretation.ask]
    cases heval : i.evaluate l.fn [context, inst] with
    | error e => simp [heval, Event.callable?]
    | ok v =>
      by_cases hv : v.truthy = true
      · simp [heval, hv, Event.callable?]
      · simp only [heval, hv, Bool.false_eq_true, if_false]
        refine ⟨?_, ih.2⟩
        rw [List.filterMap_cons, Event.callable?, ih.1]

/-- What is found for an instance. -/
theorem exists_find_instanceOf (i : Interpretation) (context inst : Value) (hread : d.ReadAs m)
    {resource action : Value} {names : List Value} {fns : List Callable}
    (hdef : r.resourceDefinition resource.name = .ok (some m))
    (hheld : r.heldLevels (.text role) resource.name action.name = .ok names)
    (htexts : ∀ level ∈ names, level.IsText) (hfns : d.Functions names fns) :
    ∃ tried f, (Query.instanceOf resource action inst).find i r context (.text role) =
        ⟨tried, .ok f⟩ ∧ f.answer = .granted ∧
      tried.filterMap Event.callable? = (i.ask context inst fns).1 ∧
      f.verdict = .ofBool (i.ask context inst fns).2 := by
  rw [Query.find]
  rcases answerInstance_cases i r context (.text role) resource.name action.name inst with
    ⟨e, he, -⟩ | ⟨id, message, hnone, hrun⟩ | ⟨m', found, hfound, -, hdef', hrun⟩
  · rw [hheld] at he
    cases he
  · rw [hheld] at hnone
    cases hnone
    cases hfns
    rw [hrun]
    exact ⟨_, _, rfl, rfl, rfl, rfl⟩
  · rw [hheld] at hfound
    cases hfound
    rw [hdef] at hdef'
    cases hdef'
    obtain ⟨hcalls, haccepted⟩ := tryLevels_of_functions i context resource.name inst hread hfns
    have hrefused : (∀ level, (tryLevels i m resource.name context inst names).2 ≠
        .accepted level) → (i.ask context inst fns).2 = false := by
      intro hnone
      rw [Bool.eq_false_iff, ne_eq, haccepted]
      rintro ⟨level, hlevel⟩
      exact hnone level hlevel
    rw [hrun]
    cases htried : (tryLevels i m resource.name context inst names).2 with
    | accepted level =>
      refine ⟨_, _, rfl, rfl, hcalls, ?_⟩
      rw [haccepted.mpr ⟨level, htried⟩]
      rfl
    | errored level kind =>
      refine ⟨_, _, rfl, rfl, hcalls, ?_⟩
      rw [hrefused (by simp [htried])]
      rfl
    | none =>
      obtain ⟨words, hwords⟩ := joined_of_isText htexts
      simp only [concludeInstance, hwords, ok_bind]
      refine ⟨_, _, rfl, rfl, hcalls, ?_⟩
      rw [hrefused (by simp [htried])]
      rfl

/-- What is found for a relationship. -/
theorem exists_find_relationship (i : Interpretation) (context : Value) (hread : d.ReadAs m)
    {resource held : Value} {name : String}
    (hdef : r.resourceDefinition resource.name = .ok (some m)) (hname : held.text? = some name) :
    ∃ f, (Query.relationship resource held).find i r context (.text role) = ⟨[], .ok f⟩ ∧
      f.answer = .granted ∧ (f.verdict = .allow ↔ d.Relates role name) := by
  have hheld : held.name.text? = some name := by rw [Value.name_of_text? hname, Value.text?_text]
  rw [hread.relationships role name held.name hheld, Query.find, answerRelationship, hdef, ok_bind]
  simp only [grantFor?_of_isText m (Value.isText_text role), ok_bind, Value.text?_text,
    Option.bind_some]
  cases hlookup : m.grants.lookup role with
  | none =>
    refine ⟨_, rfl, rfl, fun h => Verdict.noConfusion h, ?_⟩
    rintro ⟨g, hg, -⟩
    cases hg
  | some g =>
    simp only [Value.requireElement_of_isText ⟨name, hheld⟩, ok_bind]
    by_cases hany : g.relationships.any (Value.same · held.name) = true
    · rw [if_pos hany]
      exact ⟨_, rfl, rfl, fun _ => ⟨g, rfl, hany⟩, fun _ => rfl⟩
    · rw [if_neg hany]
      refine ⟨_, rfl, rfl, fun h => Verdict.noConfusion h, ?_⟩
      rintro ⟨g', hg', hany'⟩
      cases hg'
      exact absurd hany' hany

/-! ## 3. The definition and the decisions -/

/-- The questions about a resource are decided as the definition says, for a context with this
role.

* The definition lists something for every action: the levels of the action, or nothing.
* A query of levels is answered with what is listed, unless that is nothing.
* A relationship is granted if the definition declares it, and refused otherwise.
* An instance is put to the functions that are declared for the levels listed, and to no others.
  It is accepted or refused as they say. -/
structure Definition.Kept (d : Definition) (i : Interpretation) (r : Registry)
    (context : Value) (role : String) (resource : Value) : Prop where
  lists : ∀ action : String, ∃ names, d.Grants role action names
  levels : ∀ (action : Value) (name : String) (names : List Value), action.text? = some name →
    d.Grants role name names →
      (Query.levels resource action).Ends i r context (screen i r context).1
        (if names.isEmpty then .deny else .allow)
        fun _ => Run.pure (.levels (if names.isEmpty then none else some names))
  related : ∀ (held : Value) (name : String), held.text? = some name → d.Relates role name →
    (Query.relationship resource held).Ends i r context (screen i r context).1 .allow
      fun _ => Run.pure .granted
  unrelated : ∀ (held : Value) (name : String), held.text? = some name → ¬ d.Relates role name →
    (Query.relationship resource held).Ends i r context (screen i r context).1 .deny
      (refuse i r.authzRefusal)
  instances : ∀ (action inst : Value) (name : String) (names : List Value),
    action.text? = some name → d.Grants role name names →
      ∃ fns tried, d.Functions names fns ∧
        tried.filterMap Event.callable? = (i.ask context inst fns).1 ∧
        (Query.instanceOf resource action inst).Ends i r context
          ((screen i r context).1 ++ tried) (.ofBool (i.ask context inst fns).2)
          (if (i.ask context inst fns).2 then fun _ => Run.pure .granted
            else refuse i r.authzRefusal)

/-- **Validation keeps what a definition says.**  Once a resource has been added with a definition,
and whatever else happens to the registry afterwards, the questions about the resource are decided
as the definition says. -/
theorem declaration_kept {added v : Value} (hadded : r.addResource added v = .ok r')
    (hv : Definition.ofValue? v = some d) (hd : d.NamesLevels) (hlater : r'.Grows s)
    (hresource : resource.text? = added.name.text?) (hc : s.Accepts i context)
    (hrole : contextRole? context = some (.text role)) :
    d.Kept i s context role resource := by
  obtain ⟨name, m, hname, hblank, hvalid, hm⟩ :=
    Registry.exists_validate_of_addResource hadded hv
  have hread := Definition.readAs_of_validate hvalid
  have hkept : s.metadata? name = some m := hlater.extends.rulebooks name m hm
  have hasked : resource.name.text? = some name := by
    rw [Value.name_of_text? (hresource.trans hname), Value.text?_text]
  have hdef : s.resourceDefinition resource.name = .ok (some m) := by
    rw [s.resourceDefinition_of_text? hasked hblank, hkept]
  have hheld : ∀ {action : Value} {a : String} {names : List Value}, action.text? = some a →
      d.Grants role a names → s.heldLevels (.text role) resource.name action.name = .ok names := by
    intro action a names haction hgrants
    have hplain : action.name.text? = some a := by
      rw [Value.name_of_text? haction, Value.text?_text]
    exact heldLevels_of_grants hread hkept hblank hasked hplain hgrants
  have hknown : ∀ {action : Value} {a : String} {names : List Value}, action.text? = some a →
      d.Grants role a names →
        ∀ level ∈ names, level.IsText ∧ ∃ l, Value.find? level m.levels = some l :=
    fun haction hgrants => known_of_heldLevels (Definition.coherent_of_validate hvalid)
      (Definition.isText_of_validate hd hvalid) hdef (hheld haction hgrants)
  exact {
    lists := fun action => ⟨_, (hread.levels role action (.text action) _ rfl).mpr rfl⟩
    levels := by
      intro action a names haction hgrants
      obtain ⟨f, hf, hfound⟩ := answerLevels_of_held (hheld haction hgrants)
        fun level hlevel => (hknown haction hgrants level hlevel).1
      have hfind : (Query.levels resource action).find i s context (.text role) = ⟨[], .ok f⟩ :=
        congrArg Run.ofExcept hf
      have hends := ends_of_find hc hrole hfind
      rw [List.append_nil] at hends
      rcases hfound with ⟨hne, hverdict, -, hanswer⟩ | ⟨rfl, hverdict, -, hanswer⟩
      · have hnonempty : names.isEmpty = false := by simpa using hne
        simpa [hverdict, hanswer, hnonempty, Query.raisesDenial] using hends
      · simpa [hverdict, hanswer, Query.raisesDenial] using hends
    related := by
      intro held a ha hrelates
      obtain ⟨f, hfind, hanswer, hverdict⟩ :=
        exists_find_relationship i context hread hdef ha
      have hends := ends_of_find hc hrole hfind
      simpa [hverdict.mpr hrelates, hanswer] using hends
    unrelated := by
      intro held a ha hrelates
      obtain ⟨f, hfind, hanswer, hverdict⟩ :=
        exists_find_relationship i context hread hdef ha
      have hdenied : f.verdict = .deny := by
        cases hf : f.verdict with
        | deny => rfl
        | allow => exact absurd (hverdict.mp hf) hrelates
      have hends := ends_of_find hc hrole hfind
      simpa [hdenied, Query.raisesDenial] using hends
    instances := by
      intro action inst a names haction hgrants
      obtain ⟨fns, hfns⟩ := exists_functions hread (hknown haction hgrants)
      obtain ⟨tried, f, hfind, hanswer, hcalls, hverdict⟩ :=
        exists_find_instanceOf i context inst hread hdef (hheld haction hgrants)
          (fun level hlevel => (hknown haction hgrants level hlevel).1) hfns
      have hends := ends_of_find hc hrole hfind
      refine ⟨fns, tried, hfns, hcalls, ?_⟩
      cases haccepts : (i.ask context inst fns).2 with
      | true => simpa [hverdict, haccepts, hanswer] using hends
      | false => simpa [hverdict, haccepts, Query.raisesDenial] using hends }

/-! ## 4. Two definitions -/

/-- A definition that is written in as many ways as there are: a single text, maps and records, an
enumeration, a list with a repetition. -/
def mixed : Definition where
  identifier := .text "id"
  actions := .text "READ"
  levels := .map [(.member "Level" "OWN" (.text "OWN"),
      .map [(.text "fn", .callable (.rule .ownRecord)), (.text "priority", .int 0)]),
    (.text "ALL", UserLevel.all.record)]
  relationships := .callable (.enumeration "Relation" [("OWNER", .text "OWNER")])
  roles := .map [(Role.agent.member, .record .grant
    [("permissions", .map [(.text "READ", .list [.text "OWN", .text "ALL", .text "OWN"])]),
      ("relationships", .text "OWNER")])]
  model := .null

/-- The registry of the application's roles, with one rulebook for invoices. -/
def invoiceRegistry (m : Metadata) : Registry :=
  { Rulebook.declared true with
    resources := [(Rulebook.userResource, none), ("Invoice", some m)]
    index := Role.all.map fun r => (r.name, if r = .agent then ["Invoice"] else []) }

/-- What validation makes of the mixed definition. -/
def mixedRulebook : Metadata where
  identifier := "id"
  actions := [.text "READ"]
  levels := [(.text "OWN", ⟨.rule .ownRecord, 0⟩), (.text "ALL", ⟨.rule .anyone, 0⟩)]
  relationships := [.text "OWNER"]
  grants := [(Role.agent.name,
    ⟨[(.text "READ", [.text "OWN", .text "ALL", .text "OWN"])], [.text "OWNER"]⟩)]

/-- The case of the mixed definition and an agent. -/
theorem declaration_kept_mixed :
    (Rulebook.declared true).addResource (.text "Invoice") mixed.toValue =
        .ok (invoiceRegistry mixedRulebook) ∧
      Definition.ofValue? mixed.toValue = some mixed ∧ mixed.NamesLevels ∧
      (invoiceRegistry mixedRulebook).Grows (invoiceRegistry mixedRulebook) ∧
      (invoiceRegistry mixedRulebook).Accepts .standard agentContext ∧
      contextRole? agentContext = some (.text Role.agent.name) ∧
      mixed.Kept .standard (invoiceRegistry mixedRulebook) agentContext Role.agent.name
        (.text "Invoice") := by
  have hadded : (Rulebook.declared true).addResource (.text "Invoice") mixed.toValue =
      .ok (invoiceRegistry mixedRulebook) := rfl
  have hv : Definition.ofValue? mixed.toValue = some mixed := rfl
  have hnames : mixed.NamesLevels := by
    intro entries hentries
    cases hentries
    simp only [List.forall_mem_cons]
    exact ⟨⟨_, rfl⟩, ⟨_, rfl⟩, by simp⟩
  have hlater : (invoiceRegistry mixedRulebook).Grows (invoiceRegistry mixedRulebook) := .refl
  have hc : (invoiceRegistry mixedRulebook).Accepts .standard agentContext :=
    screen_eq_none_iff.mp rfl
  have hrole : contextRole? agentContext = some (.text Role.agent.name) := rfl
  exact ⟨hadded, hv, hnames, hlater, hc, hrole,
    declaration_kept hadded hv hnames hlater rfl hc hrole⟩

/-- A definition with one relationship, which is called by the empty text; the role of an agent has
it. -/
def lossy : Definition :=
  { mixed with
    relationships := .text ""
    roles := .map [(Role.agent.member, .record .grant
      [("permissions", .map []), ("relationships", .text "")])] }

/-- What validation makes of it: the relationship is still declared, but nobody has it. -/
def lossyRulebook : Metadata :=
  { mixedRulebook with
    relationships := [.text ""]
    grants := [(Role.agent.name, ⟨[], []⟩)] }

/-- **A relationship that is lost.**  The definition is accepted, and it lists the relationship for
agents; and an agent who asks for it is refused. -/
theorem relationship_lost :
    (Rulebook.declared true).addResource (.text "Invoice") lossy.toValue =
        .ok (invoiceRegistry lossyRulebook) ∧
      (invoiceRegistry lossyRulebook).Accepts .standard agentContext ∧
      (lossy.roles.under Role.agent.name).bind (Value.part? "relationships") = some (.text "") ∧
      (Value.text "").Lists [.text ""] ∧
      (Query.relationship (.text "Invoice") (.text "")).Ends .standard
        (invoiceRegistry lossyRulebook) agentContext
        (screen .standard (invoiceRegistry lossyRulebook) agentContext).1 .deny
        (refuse .standard (invoiceRegistry lossyRulebook).authzRefusal) := by
  refine ⟨rfl, screen_eq_none_iff.mp rfl, rfl, .single (Value.isText_text ""), ?_⟩
  exact ⟨_, rfl, rfl⟩

end AccessControl
