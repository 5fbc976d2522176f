import AccessControl.Proofs.Decision.Faithfulness
import AccessControl.Proofs.Value.Order

/-!
# The first level that decides

An instance is put to the levels that the role holds, one after the other, and there are three
things that the predicate of a level can do.  It returns what counts as true, and the instance is
accepted; it raises, and the instance is refused; or it returns what counts as false, and the next
level is asked.  So all depends on the first level that does one of the first two, if there is one:
`first_level_decides`.

## A position in the list

The functions of the levels are a list, and `Interpretation.decides` says of each of them whether it
would decide.  The position of the first is `List.findIdx`, which is the length of the list if there
is none.  Everything that a decision does can be read off this position: which functions are called
(those up to it, each as often as it stands there), whether the instance is accepted, and what the
record says.

The list may name a level more than once, and it may be of any length; so this is an induction over
the levels and their functions, `tryLevels_calls` and `tryLevels_snd`.  The loop has a branch for
a level that has no function.  It is not taken, because the rulebook is coherent.

## The id of the instance

The id in the record is read before the grant of the role is looked up.  Hence it does not depend on
how the question is decided, as long as the resource is defined.
-/

namespace AccessControl

variable {i : Interpretation} {r : Registry} {context resource action inst : Value}
  {m : Metadata} {levels : List Value} {fns : List Callable}

/-- The predicate decides, if it is called with these arguments: what it returns counts as true, or
it raises. -/
def Interpretation.decides (i : Interpretation) (arguments : List Value) (f : Callable) : Bool :=
  match i.evaluate f arguments with
  | .ok v => v.truthy
  | .error _ => true

/-- One of the predicates returns what counts as true, and all before it return what counts as false
and do not raise. -/
def Interpretation.SomeAccepts (i : Interpretation) (arguments : List Value)
    (fns : List Callable) : Prop :=
  ∃ (n : Nat) (f : Callable) (v : Value), fns[n]? = some f ∧ i.evaluate f arguments = .ok v ∧
    v.truthy = true ∧
    ∀ j < n, ∃ (g : Callable) (w : Value), fns[j]? = some g ∧
      i.evaluate g arguments = .ok w ∧ w.truthy = false

/-- These are the functions of the levels, one for each. -/
def Metadata.Functions (m : Metadata) : List Value → List Callable → Prop :=
  List.Forall₂ fun level f => ∃ l, Value.find? level m.levels = some l ∧ l.fn = f

/-! ## 1. The position of the first that decides -/

theorem Interpretation.decides_of_ok {arguments : List Value} {f : Callable} {v : Value}
    (h : i.evaluate f arguments = .ok v) : i.decides arguments f = v.truthy := by
  rw [Interpretation.decides, h]

theorem Interpretation.decides_of_error {arguments : List Value} {f : Callable} {e : Fault}
    (h : i.evaluate f arguments = .error e) : i.decides arguments f = true := by
  rw [Interpretation.decides, h]

theorem Interpretation.decides_eq_false_iff {arguments : List Value} {f : Callable} :
    i.decides arguments f = false ↔ ∃ v, i.evaluate f arguments = .ok v ∧ v.truthy = false := by
  cases heval : i.evaluate f arguments with
  | ok v =>
    rw [i.decides_of_ok heval]
    constructor
    · exact fun h => ⟨v, rfl, h⟩
    · rintro ⟨w, hw, h⟩
      cases hw
      exact h
  | error e =>
    rw [i.decides_of_error heval]
    constructor
    · intro h
      cases h
    · rintro ⟨v, hv, -⟩
      cases hv

/-- Some predicate accepts exactly when the first one that decides does. -/
theorem Interpretation.someAccepts_iff {arguments : List Value} :
    i.SomeAccepts arguments fns ↔ ∃ f v, fns[fns.findIdx (i.decides arguments)]? = some f ∧
      i.evaluate f arguments = .ok v ∧ v.truthy = true := by
  constructor
  · rintro ⟨n, f, v, hf, hv, htruthy, hbefore⟩
    obtain ⟨hn, hfn⟩ := List.getElem?_eq_some_iff.mp hf
    have hfirst : fns.findIdx (i.decides arguments) = n := by
      rw [List.findIdx_eq hn, hfn, i.decides_of_ok hv]
      refine ⟨htruthy, fun j hj => ?_⟩
      obtain ⟨g, w, hg, hw, hfalsy⟩ := hbefore j hj
      obtain ⟨hlt, hgj⟩ := List.getElem?_eq_some_iff.mp hg
      rw [hgj, decides_eq_false_iff]
      exact ⟨w, hw, hfalsy⟩
    rw [hfirst]
    exact ⟨f, v, hf, hv, htruthy⟩
  · rintro ⟨f, v, hf, hv, htruthy⟩
    refine ⟨_, f, v, hf, hv, htruthy, fun j hj => ?_⟩
    have hlt : j < fns.length := Nat.lt_of_lt_of_le hj List.findIdx_le_length
    obtain ⟨w, hw, hfalsy⟩ := decides_eq_false_iff.mp (List.not_of_lt_findIdx hj)
    exact ⟨fns[j], w, List.getElem?_eq_getElem hlt, hw, hfalsy⟩

/-! ## 2. One level -/

section Step

variable {level : Value} {l : AccessLevel} (hl : Value.find? level m.levels = some l)

include hl

/-- A level whose predicate raises is the last one that is tried. -/
theorem tryLevels_cons_of_error {e : Fault} (h : i.evaluate l.fn [context, inst] = .error e) :
    tryLevels i m resource context inst (level :: levels) =
      ([.called l.fn,
        .logged (predicateLine
          ("Access level " ++ level.plain ++ " on " ++ resource.plain
            ++ " raised during evaluation") e)], .errored level e.kind) := by
  simp only [tryLevels, hl, h]

/-- So is a level that accepts. -/
theorem tryLevels_cons_of_accepted {v : Value} (h : i.evaluate l.fn [context, inst] = .ok v)
    (hv : v.truthy = true) :
    tryLevels i m resource context inst (level :: levels) =
      ([.called l.fn], .accepted level) := by
  simp only [tryLevels, hl, h, hv, if_true]

/-- After any other level the rest is tried. -/
theorem tryLevels_cons_of_passed {v : Value} (h : i.evaluate l.fn [context, inst] = .ok v)
    (hv : v.truthy = false) :
    tryLevels i m resource context inst (level :: levels) =
      (.called l.fn :: (tryLevels i m resource context inst levels).1,
        (tryLevels i m resource context inst levels).2) := by
  simp only [tryLevels, hl, h, hv, Bool.false_eq_true, if_false]

end Step

/-! ## 3. All levels -/

/-- **The predicates that are called** are those up to the first that decides, in their order. -/
theorem tryLevels_calls (h : m.Functions levels fns) :
    (tryLevels i m resource context inst levels).1.filterMap Event.callable? =
      fns.take (fns.findIdx (i.decides [context, inst]) + 1) := by
  induction h with
  | nil => rfl
  | @cons level f levels fns hlevel _ ih =>
    obtain ⟨l, hl, rfl⟩ := hlevel
    rw [List.findIdx_cons]
    cases heval : i.evaluate l.fn [context, inst] with
    | error e =>
      rw [tryLevels_cons_of_error hl heval, i.decides_of_error heval, cond_true]
      rfl
    | ok v =>
      rw [i.decides_of_ok heval]
      cases hv : v.truthy with
      | true =>
        rw [tryLevels_cons_of_accepted hl heval hv, cond_true]
        rfl
      | false =>
        rw [tryLevels_cons_of_passed hl heval hv, cond_false, List.take_succ_cons, ← ih]
        rfl

/-- **The first level that decides** accepts, or it fails. -/
theorem tryLevels_snd (h : m.Functions levels fns) {level : Value} {f : Callable}
    (hlevel : levels[fns.findIdx (i.decides [context, inst])]? = some level)
    (hf : fns[fns.findIdx (i.decides [context, inst])]? = some f) :
    (tryLevels i m resource context inst levels).2 = match i.evaluate f [context, inst] with
      | .ok _ => .accepted level
      | .error e => .errored level e.kind := by
  induction h with
  | nil => cases hf
  | @cons first g levels fns hfirst _ ih =>
    obtain ⟨l, hl, rfl⟩ := hfirst
    rw [List.findIdx_cons] at hlevel hf
    cases heval : i.evaluate l.fn [context, inst] with
    | error e =>
      rw [i.decides_of_error heval, cond_true] at hlevel hf
      cases hlevel
      cases hf
      rw [tryLevels_cons_of_error hl heval, heval]
    | ok v =>
      rw [i.decides_of_ok heval] at hlevel hf
      cases hv : v.truthy with
      | true =>
        rw [hv, cond_true] at hlevel hf
        cases hlevel
        cases hf
        rw [tryLevels_cons_of_accepted hl heval hv, heval]
      | false =>
        rw [hv, cond_false, List.getElem?_cons_succ] at hlevel hf
        rw [tryLevels_cons_of_passed hl heval hv]
        exact ih hlevel hf

/-- If no level decides, none accepts. -/
theorem tryLevels_none (h : m.Functions levels fns)
    (hnone : fns.findIdx (i.decides [context, inst]) = fns.length) :
    (tryLevels i m resource context inst levels).2 = .none := by
  rw [List.findIdx_eq_length] at hnone
  induction h with
  | nil => rfl
  | @cons level f levels fns hlevel _ ih =>
    obtain ⟨l, hl, rfl⟩ := hlevel
    rw [List.forall_mem_cons] at hnone
    obtain ⟨v, hv, hfalsy⟩ := Interpretation.decides_eq_false_iff.mp hnone.1
    rw [tryLevels_cons_of_passed hl hv hfalsy]
    exact ih hnone.2

/-- Every level that a role holds has its function. -/
theorem exists_functions_of_held (hr : r.Coherent) {role : Value}
    (hdef : r.resourceDefinition resource = .ok (some m))
    (hheld : r.heldLevels role resource action = .ok levels) :
    ∃ fns, m.Functions levels fns := by
  have hfound : ∀ level ∈ levels, ∃ l, Value.find? level m.levels = some l := by
    intro level hlevel
    obtain ⟨m', l, hdef', hl⟩ := hr.exists_level hheld hlevel
    rw [hdef] at hdef'
    cases hdef'
    exact ⟨l, hl⟩
  clear hheld
  induction levels with
  | nil => exact ⟨[], .nil⟩
  | cons level rest ih =>
    rw [List.forall_mem_cons] at hfound
    obtain ⟨l, hl⟩ := hfound.1
    obtain ⟨fns, hfns⟩ := ih hfound.2
    exact ⟨l.fn :: fns, .cons ⟨l, hl, rfl⟩ hfns⟩

/-! ## 4. What is found -/

theorem joinTexts_of_texts {names : List Value} {parts : List String} {place : Nat}
    (h : names.map Value.text? = parts.map some) : joinTexts place names = .ok parts := by
  induction names generalizing parts place with
  | nil =>
    cases parts with
    | nil => rfl
    | cons s rest => cases h
  | cons v names ih =>
    cases parts with
    | nil => cases h
    | cons s rest =>
      rw [List.map_cons, List.map_cons, List.cons.injEq] at h
      rw [joinTexts, h.1]
      simp only [ih h.2]
      rfl

/-- Texts are joined as they stand. -/
theorem joined_of_texts {names : List Value} {parts : List String}
    (h : names.map Value.text? = parts.map some) :
    joined names = .ok (Value.commaSeparated parts) := by
  rw [joined, joinTexts_of_texts h]

/-- What a record says once these levels have been tried through these functions: which level was
the first to decide and how, or that none of them has decided. -/
structure Tells (i : Interpretation) (arguments found : List Value) (fns : List Callable)
    (message : String) : Prop where
  accepted : ∀ level f v, found[fns.findIdx (i.decides arguments)]? = some level →
    fns[fns.findIdx (i.decides arguments)]? = some f → i.evaluate f arguments = .ok v →
      message = "Access granted through access level '" ++ level.plain ++ "'"
  errored : ∀ level f e, found[fns.findIdx (i.decides arguments)]? = some level →
    fns[fns.findIdx (i.decides arguments)]? = some f → i.evaluate f arguments = .error e →
      message = "Access level '" ++ level.plain ++ "' raised " ++ e.kind
  exhausted : fns.findIdx (i.decides arguments) = fns.length →
    ∃ names : List String, found.map Value.text? = names.map some ∧
      message = "None of the access levels [" ++ Value.commaSeparated names
        ++ "] granted permission"

section Tells

variable {arguments found : List Value} {level : Value} {f : Callable}

/-- One of the functions decides, and it is that of the level at its place. -/
theorem Tells.of_accepted (hlevel : found[fns.findIdx (i.decides arguments)]? = some level)
    (hf : fns[fns.findIdx (i.decides arguments)]? = some f) {v : Value}
    (hv : i.evaluate f arguments = .ok v) :
    Tells i arguments found fns
      ("Access granted through access level '" ++ level.plain ++ "'") where
  accepted := by
    intro k g w hk _ _
    rw [Option.some.inj (hk.symm.trans hlevel)]
  errored := by
    intro k g e _ hg he
    rw [Option.some.inj (hg.symm.trans hf), hv] at he
    cases he
  exhausted := by
    intro hnone
    rw [hnone, List.getElem?_length] at hf
    cases hf

theorem Tells.of_errored (hlevel : found[fns.findIdx (i.decides arguments)]? = some level)
    (hf : fns[fns.findIdx (i.decides arguments)]? = some f) {e : Fault}
    (he : i.evaluate f arguments = .error e) :
    Tells i arguments found fns ("Access level '" ++ level.plain ++ "' raised " ++ e.kind) where
  accepted := by
    intro k g v _ hg hv
    rw [Option.some.inj (hg.symm.trans hf), he] at hv
    cases hv
  errored := by
    intro k g e' hk hg he'
    rw [Option.some.inj (hg.symm.trans hf), he] at he'
    cases he'
    rw [Option.some.inj (hk.symm.trans hlevel)]
  exhausted := by
    intro hnone
    rw [hnone, List.getElem?_length] at hf
    cases hf

/-- None of the functions decides. -/
theorem Tells.of_exhausted (hnone : fns.findIdx (i.decides arguments) = fns.length)
    {names : List String} (hnames : found.map Value.text? = names.map some) :
    Tells i arguments found fns ("None of the access levels [" ++ Value.commaSeparated names
      ++ "] granted permission") where
  accepted := by
    intro k g v _ hg
    rw [hnone, List.getElem?_length] at hg
    cases hg
  errored := by
    intro k g e _ hg
    rw [hnone, List.getElem?_length] at hg
    cases hg
  exhausted := fun _ => ⟨names, hnames, rfl⟩

end Tells

/-- **The first level that decides** settles what is found. -/
theorem exists_concluded (i : Interpretation) (resource context inst : Value) (subject : Subject)
    (hfns : m.Functions levels fns) (htexts : ∀ level ∈ levels, level.IsText) :
    ∃ f, concludeInstance subject levels (tryLevels i m resource context inst levels).2 = .ok f ∧
      f.answer = .granted ∧ (f.verdict = .allow ↔ i.SomeAccepts [context, inst] fns) ∧
      Tells i [context, inst] levels fns f.message := by
  have hlength : levels.length = fns.length := hfns.length_eq
  rw [Interpretation.someAccepts_iff]
  have hle : fns.findIdx (i.decides [context, inst]) ≤ fns.length := List.findIdx_le_length
  rcases Nat.lt_or_eq_of_le hle with hlt | hnone
  · -- some function decides, and it is the one of the level at its place
    have hf := List.getElem?_eq_getElem hlt
    have hlevel := List.getElem?_eq_getElem (hlength ▸ hlt)
    have hdecides : i.decides [context, inst]
        fns[fns.findIdx (i.decides [context, inst])] = true := List.findIdx_getElem
    rw [tryLevels_snd hfns hlevel hf]
    generalize fns[fns.findIdx (i.decides [context, inst])] = f at hf hdecides
    cases heval : i.evaluate f [context, inst] with
    | ok v =>
      rw [i.decides_of_ok heval] at hdecides
      exact ⟨_, rfl, rfl, ⟨fun _ => ⟨f, v, hf, heval, hdecides⟩, fun _ => rfl⟩,
        .of_accepted hlevel hf heval⟩
    | error e =>
      refine ⟨_, rfl, rfl, ⟨fun h => Verdict.noConfusion h, ?_⟩, .of_errored hlevel hf heval⟩
      rintro ⟨g, v, hg, hv, -⟩
      rw [Option.some.inj (hg.symm.trans hf), heval] at hv
      cases hv
  · obtain ⟨names, hnames⟩ : ∃ names : List String, levels.map Value.text? = names.map some :=
      ⟨_, (Value.map_text?_eq_iff htexts).mpr rfl⟩
    rw [tryLevels_none hfns hnone, concludeInstance, joined_of_texts hnames, ok_bind]
    refine ⟨_, rfl, rfl, ⟨fun h => Verdict.noConfusion h, ?_⟩, .of_exhausted hnone hnames⟩
    rintro ⟨f, v, hsome, -⟩
    rw [hnone, List.getElem?_length] at hsome
    cases hsome

/-! ## 5. What is decided -/

/-- The instance is put to these functions, and the first of them that decides settles the question,
with this record.

* The checks are called first, then the functions up to the first that decides, each once for its
  place, and nothing else is called before the record is made.
* The record is an allowance exactly when some function accepts and those before it neither accept
  nor raise; and it says which level decided.
* The question is answered with a permission exactly when the record is an allowance that the sink
  has taken. -/
structure Query.SettledBy (q : Query) (i : Interpretation) (r : Registry)
    (context : Value) (arguments found : List Value) (fns : List Callable) (a : Audit) : Prop where
  run : ∃ (tried : List Event) (ending : Run Answer),
    q.decide i r context = ⟨(screen i r context).1 ++ tried ++ ending.events, ending.outcome⟩ ∧
    (∀ e ∈ tried, e.OfPredicate r) ∧
    tried.filterMap Event.callable? = fns.take (fns.findIdx (i.decides arguments) + 1) ∧
    q.Ending i r context a .granted ending
  allowed : a.result = .allow ↔ i.SomeAccepts arguments fns
  told : ∃ message, a.message = .text message ∧ Tells i arguments found fns message
  granted : (q.decide i r context).outcome = .ok .granted ↔ a.result = .allow ∧ Recorded i r a

/-- An instance query finds what its levels come to. -/
theorem find_instanceOf_of_held (i : Interpretation) (context inst : Value) {role : Value}
    (hdef : r.resourceDefinition resource.name = .ok (some m))
    (hheld : r.heldLevels role resource.name action.name = .ok levels) (hne : levels ≠ []) :
    (Query.instanceOf resource action inst).find i r context role =
      ⟨(tryLevels i m resource.name context inst levels).1,
        concludeInstance (.instanceOf action.name (readIdentifier inst m.identifier)) levels
          (tryLevels i m resource.name context inst levels).2⟩ := by
  rw [Query.find]
  rcases answerInstance_cases i r context role resource.name action.name inst with
    ⟨e, he, -⟩ | ⟨id, message, hnone, -⟩ | ⟨m', found, hfound, -, hdef', hrun⟩
  · rw [hheld] at he
    cases he
  · rw [hheld] at hnone
    exact absurd (Except.ok.inj hnone) hne
  · rw [hheld] at hfound
    cases hfound
    rw [hdef] at hdef'
    cases hdef'
    exact hrun

/-- The context of a manager to whom nobody is assigned. -/
def managerContext : Value :=
  .record .context
    [("user_id", .text "m1"), ("role", .text Role.manager.name), ("rank", .int 2),
      ("is_active", .bool true), ("assigned_users", .tuple [])]

/-- The manager as a user. -/
def managerValue : Value :=
  .record .user [("user_id", .text "m1"), ("rank", .int 2)]

end AccessControl
