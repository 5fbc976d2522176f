import AccessControl.Decision
import AccessControl.Proofs.Outcome
import AccessControl.Proofs.Registry.CommandSpelling

/-!
# How a call and its context spell names

A call names a resource, and an action, a relationship or levels; the context names a role.  The
engine takes the plain name behind each of these before it does anything else, so what it finds and
records does not depend on how they are spelled.

## Where the spelling could be seen

There is one way out of the engine on which a name has not been replaced: the context is handed to
the global checks and to the predicates of the levels as it is, with its role as it was spelled.
These functions belong to the application, and they can find out whether a role is a member of an
enumeration.  `Registry.Overlooks` says that those of a registry do not make a difference, by what
the engine learns from them: whether they accept, or what kind of error they fail with.

Functions that compute expressions have few means to tell a text from a member.  They can compare
it and order it, which is by the characters, and only when they look the role up in an enumeration
its spelling counts, because an enumeration has members and no texts.  All others overlook it,
`overlooks_of_standard`.
-/

namespace AccessControl

variable {i : Interpretation} {r : Registry} {m : Metadata}
  {context role resource action inst : Value} {f : Callable}

/-! ## 1. The context -/

/-- One part of a context, with the role spelled out. -/
def Value.spellOutRolePart (part : String) (v : Value) : Value :=
  if part = "role" then v.spellOut else v

/-- The context with its role spelled out. -/
def Value.spellOutRole (context : Value) : Value :=
  context.mapParts spellOutRolePart

/-- A field of the context is another spelling of what it was. -/
theorem Value.map_field?_spellOutRole (context : Value) (key : String) :
    (context.spellOutRole.field? key).map spellOut = (context.field? key).map spellOut := by
  cases context with
  | record shape fields =>
    have hfield : ((record shape fields).spellOutRole).field? key =
        (fields.lookup key).map (spellOutRolePart key) :=
      lookup_map_part spellOutRolePart key fields
    have hpart : spellOut ∘ spellOutRolePart key = spellOut := by
      funext v
      rw [Function.comp_apply, spellOutRolePart]
      split
      · exact spellOut_spellOut v
      · rfl
    rw [hfield, Option.map_map, hpart]
    rfl
  | _ => rfl

/-- Every other field is left as it is. -/
theorem Value.field?_spellOutRole {key : String} (hkey : key ≠ "role") (context : Value) :
    context.spellOutRole.field? key = context.field? key := by
  cases context with
  | record shape fields =>
    have hfield : ((record shape fields).spellOutRole).field? key =
        (fields.lookup key).map (spellOutRolePart key) :=
      lookup_map_part spellOutRolePart key fields
    have hpart : spellOutRolePart key = id := funext fun v => if_neg hkey
    rw [hfield, hpart, Option.map_id]
    rfl
  | _ => rfl

theorem contextRole?_spellOutRole (context : Value) :
    contextRole? context.spellOutRole = contextRole? context := by
  have hfield := Value.map_field?_spellOutRole context "role"
  rw [contextRole?, contextRole?]
  cases hv : context.field? "role" with
  | none =>
    rw [hv, Option.map_none, Option.map_eq_none_iff] at hfield
    rw [hfield]
  | some v =>
    rw [hv, Option.map_some, Option.map_eq_some_iff] at hfield
    obtain ⟨w, hw, hsame⟩ := hfield
    have htruthy := congrArg Value.truthy hsame
    have hname := congrArg Value.name hsame
    rw [Value.truthy_spellOut, Value.truthy_spellOut] at htruthy
    rw [Value.name_spellOut, Value.name_spellOut] at hname
    simp only [hw, htruthy, hname]

theorem contextUserId_spellOutRole (context : Value) :
    contextUserId context.spellOutRole = contextUserId context := by
  rw [contextUserId, contextUserId, Value.field?_spellOutRole (by decide)]

/-! ## 2. Predicates -/

/-- What the engine learns from a predicate: whether it accepts, or what kind of error it fails
with. -/
def Interpretation.verdict (i : Interpretation) (f : Callable) (arguments : List Value) :
    Except String Bool :=
  ((i.evaluate f arguments).map Value.truthy).mapError Fault.kind

/-- The checks and the predicates of the registry make no difference between the context and the
context with its role spelled out. -/
structure Registry.Overlooks (r : Registry) (i : Interpretation) (context : Value) : Prop where
  checks : ∀ c ∈ r.checks, i.verdict c.fn [context.spellOutRole] = i.verdict c.fn [context]
  levels : ∀ name m, r.metadata? name = some m → ∀ l ∈ m.levels, ∀ inst,
    i.verdict l.2.fn [context.spellOutRole, inst] = i.verdict l.2.fn [context, inst]

/-- With the same verdict two calls fail with errors of one kind, or both succeed and count the
same. -/
theorem verdict_cases {xs ys : List Value} (h : i.verdict f xs = i.verdict f ys) :
    (∃ e e', i.evaluate f xs = .error e ∧ i.evaluate f ys = .error e' ∧ e.kind = e'.kind) ∨
      ∃ v w, i.evaluate f xs = .ok v ∧ i.evaluate f ys = .ok w ∧ v.truthy = w.truthy := by
  rw [Interpretation.verdict, Interpretation.verdict] at h
  cases hx : i.evaluate f xs with
  | error e =>
    cases hy : i.evaluate f ys with
    | error e' =>
      rw [hx, hy] at h
      exact .inl ⟨e, e', rfl, rfl, Except.error.inj h⟩
    | ok w =>
      rw [hx, hy] at h
      cases h
  | ok v =>
    cases hy : i.evaluate f ys with
    | error e' =>
      rw [hx, hy] at h
      cases h
    | ok w =>
      rw [hx, hy] at h
      exact .inr ⟨v, w, rfl, rfl, Except.ok.inj h⟩

theorem predicateLine_congr {e e' : Fault} (message : String) (h : e.kind = e'.kind) :
    predicateLine message e = predicateLine message e' := by
  rw [predicateLine, predicateLine, h]

/-- Checks with the same verdicts are run in the same way. -/
theorem runChecks_spellOutRole {checks : List GlobalCheck}
    (h : ∀ c ∈ checks, i.verdict c.fn [context.spellOutRole] = i.verdict c.fn [context]) :
    runChecks i context.spellOutRole checks = runChecks i context checks := by
  induction checks with
  | nil => rfl
  | cons c rest ih =>
    rw [List.forall_mem_cons] at h
    rw [runChecks, runChecks, ih h.2]
    rcases verdict_cases h.1 with ⟨e, e', he, he', hkind⟩ | ⟨v, w, hv, hw, htruthy⟩
    · simp only [he, he', hkind, predicateLine_congr _ hkind]
    · simp only [hv, hw, htruthy]

/-- Levels with the same verdicts are tried in the same way. -/
theorem tryLevels_spellOutRole
    (h : ∀ l ∈ m.levels,
      i.verdict l.2.fn [context.spellOutRole, inst] = i.verdict l.2.fn [context, inst])
    (granted : List Value) :
    tryLevels i m resource context.spellOutRole inst granted =
      tryLevels i m resource context inst granted := by
  induction granted with
  | nil => rfl
  | cons level rest ih =>
    rw [tryLevels, tryLevels, ih]
    cases hfound : Value.find? level m.levels with
    | none => rfl
    | some l =>
      obtain ⟨key, hmem, -⟩ := Value.mem_of_find? hfound
      rcases verdict_cases (h (key, l) hmem) with ⟨e, e', he, he', hkind⟩ | ⟨v, w, hv, hw, htruthy⟩
      · simp only [he, he', hkind, predicateLine_congr _ hkind]
      · simp only [hv, hw, htruthy]

/-! ## 3. Decisions -/

theorem screen_spellOutRole (h : r.Overlooks i context) :
    screen i r context.spellOutRole = screen i r context := by
  have hnull : context.spellOutRole.isNull = context.isNull := Value.isNull_mapParts _ _
  rw [screen, screen, hnull, contextRole?_spellOutRole, runChecks_spellOutRole h.checks]

theorem answerInstance_spellOutRole (h : r.Overlooks i context) :
    answerInstance i r context.spellOutRole role resource action inst =
      answerInstance i r context role resource action inst := by
  rw [answerInstance, answerInstance]
  cases hdef : r.resourceDefinition resource with
  | error e => rfl
  | ok defined =>
    cases defined with
    | none => rfl
    | some m =>
      rw [Registry.resourceDefinition, bind_eq_ok_iff] at hdef
      obtain ⟨name, -, hm⟩ := hdef
      have hlevels := h.levels name m (Except.ok.inj hm)
      simp only [tryLevels_spellOutRole fun l hl => hlevels l hl inst]

/-- **Decisions do not see how the role of the context is spelled**, if the predicates of the
registry overlook it. -/
theorem decide_spellOutRole (h : r.Overlooks i context) (q : Query) :
    q.decide i r context.spellOutRole = q.decide i r context := by
  -- only a question about an instance hands the context on
  have hfind (role : Value) : q.find i r context.spellOutRole role = q.find i r context role := by
    cases q with
    | instanceOf resource action inst => exact answerInstance_spellOutRole h
    | _ => rfl
  have hconclude :
      Finding.conclude i r context.spellOutRole q = Finding.conclude i r context q := by
    funext found
    rw [Finding.conclude, Finding.conclude, Finding.audit, Finding.audit,
      contextUserId_spellOutRole]
  simp only [Query.decide, screen_spellOutRole h, contextRole?_spellOutRole, hfind, hconclude,
    Rejection.audit, contextUserId_spellOutRole]

/-- The levels that a permission query names are read by their plain names. -/
theorem requestedLevels_spellOutItems (filter : Value) :
    requestedLevels filter.spellOutItems = requestedLevels filter := by
  have hnames := Value.map_name_spellOutItems filter
  rw [requestedLevels, requestedLevels, Value.truthy_spellOutItems]
  cases hitems : filter.items? with
  | none =>
    rw [hitems, Option.map_none, Option.map_eq_none_iff] at hnames
    rw [hnames, Value.spellOutItems_of_items? hitems]
  | some items =>
    rw [hitems, Option.map_some, Option.map_eq_some_iff] at hnames
    obtain ⟨spelled, hspelled, hsame⟩ := hnames
    simp only [hspelled, hsame]

/-- The names in the question, spelled out. -/
def Query.spellOut : Query → Query
  | permission resource action requested => permission resource.spellOut action.spellOut requested
  | levels resource action => levels resource.spellOut action.spellOut
  | relationship resource held => relationship resource.spellOut held.spellOut
  | instanceOf resource action inst => instanceOf resource.spellOut action.spellOut inst

/-- A question is answered by the plain names in it. -/
theorem decide_spellOut (i : Interpretation) (r : Registry) (context : Value) (q : Query) :
    q.spellOut.decide i r context = q.decide i r context := by
  have hresource : q.spellOut.resource = q.resource := by
    cases q <;> simp only [Query.spellOut, Query.resource, Value.name_spellOut]
  have hbare : q.spellOut.bareSubject = q.bareSubject := by
    cases q <;> simp only [Query.spellOut, Query.bareSubject, Value.name_spellOut]
  have hfind (role : Value) : q.spellOut.find i r context role = q.find i r context role := by
    cases q <;> simp only [Query.spellOut, Query.find, Value.name_spellOut]
  have hraises : q.spellOut.raisesDenial = q.raisesDenial := by
    cases q <;> rfl
  have hconclude : Finding.conclude i r context q.spellOut = Finding.conclude i r context q := by
    funext found
    rw [Finding.conclude, Finding.conclude, hresource, hraises]
  simp only [Query.decide, hresource, hbare, hfind, hconclude]

/-- **Decisions do not see how names are spelled**, neither those of the question nor the role of
the context. -/
theorem decide_respelled (h : r.Overlooks i context) (q : Query) :
    q.spellOut.decide i r context.spellOutRole = q.decide i r context := by
  rw [decide_spellOut, decide_spellOutRole h]

theorem hasPermission_respelled (h : r.Overlooks i context) (resource action filter : Value) :
    hasPermission i r context.spellOutRole resource.spellOut action.spellOut
        filter.spellOutItems =
      hasPermission i r context resource action filter := by
  rw [hasPermission, hasPermission, requestedLevels_spellOutItems]
  cases requestedLevels filter with
  | error e => rfl
  | ok requested => exact decide_respelled h (.permission resource action requested)

/-! ## 4. Predicates that compute expressions -/

/-- Two calls come to values of which the relation holds, or fail with errors of one kind. -/
inductive Interpretation.Matches (R : Value → Value → Prop) :
    Except Fault Value → Except Fault Value → Prop
  | ok {v w : Value} (h : R v w) : Matches R (.ok v) (.ok w)
  | error {e e' : Fault} (h : e.kind = e'.kind) : Matches R (.error e) (.error e')

namespace Interpretation.Matches

variable {R S : Value → Value → Prop} {x y : Except Fault Value}

theorem refl (x : Except Fault Value) : Matches Eq x x := by
  cases x with
  | error e => exact error rfl
  | ok v => exact ok rfl

theorem mono (hRS : ∀ v w, R v w → S v w) (h : Matches R x y) : Matches S x y := by
  cases h with
  | ok h => exact ok (hRS _ _ h)
  | error h => exact error h

theorem bind {f g : Value → Except Fault Value} (h : Matches R x y)
    (hfg : ∀ v w, R v w → Matches S (f v) (g w)) : Matches S (x >>= f) (y >>= g) := by
  cases h with
  | ok h => exact hfg _ _ h
  | error h => exact error h

end Interpretation.Matches

/-- The two values are spellings of one name, or the same value. -/
def Value.Alike (v w : Value) : Prop :=
  v.spellOut = w.spellOut

namespace Expr

open Interpretation (Matches)

/-- The expression is the role of the context. -/
def isRole : Expr → Bool
  | .context key => key == "role"
  | _ => false

/-- The expression does not look the role of the context up in anything. -/
def OverlooksRole : Expr → Prop
  | .not e => e.OverlooksRole
  | .eq a b => a.OverlooksRole ∧ b.OverlooksRole
  | .le a b => a.OverlooksRole ∧ b.OverlooksRole
  | .mem a b => a.isRole = false ∧ a.OverlooksRole ∧ b.OverlooksRole
  | _ => True

theorem matches_contextField (context : Value) (key : String) :
    Matches Value.Alike (contextField context.spellOutRole key) (contextField context key) := by
  have hfield := Value.map_field?_spellOutRole context key
  rw [contextField, contextField]
  cases hv : context.field? key with
  | none =>
    rw [hv, Option.map_none, Option.map_eq_none_iff] at hfield
    rw [hfield]
    exact .error rfl
  | some v =>
    rw [hv, Option.map_some, Option.map_eq_some_iff] at hfield
    obtain ⟨w, hw, hsame⟩ := hfield
    rw [hw]
    exact .ok hsame

/-- What is the very same is also the same up to spelling. -/
theorem matches_both {x y : Except Fault Value} {p : Prop} (h : Matches Eq x y) :
    Matches Value.Alike x y ∧ (p → Matches Eq x y) :=
  ⟨h.mono fun _ _ hsame => congrArg Value.spellOut hsame, fun _ => h⟩

/-- **An expression comes to the same** up to the spelling of the role, and to the very same unless
it is the role. -/
theorem matches_evaluate (context inst : Value) : (e : Expr) → e.OverlooksRole →
    Matches Value.Alike (e.evaluate context.spellOutRole inst) (e.evaluate context inst) ∧
      (e.isRole = false →
        Matches Eq (e.evaluate context.spellOutRole inst) (e.evaluate context inst))
  | .const v, _ => matches_both (Matches.refl _)
  | .context key, _ => by
    refine ⟨matches_contextField context key, fun hrole => ?_⟩
    have hkey : key ≠ "role" := ne_of_beq_false hrole
    rw [evaluate, evaluate, contextField, contextField, Value.field?_spellOutRole hkey]
    cases context.field? key with
    | none => exact .error rfl
    | some v => exact .ok rfl
  | .resource key, _ => matches_both (Matches.refl _)
  | .fail kind, _ => matches_both (Matches.refl _)
  | .not e, h => by
    refine matches_both ((matches_evaluate context inst e h).1.bind fun v w hvw => .ok ?_)
    rw [← Value.truthy_spellOut v, hvw, Value.truthy_spellOut]
  | .eq a b, h => by
    refine matches_both ((matches_evaluate context inst a h.1).1.bind fun v v' hv => ?_)
    refine (matches_evaluate context inst b h.2).1.bind fun w w' hw => .ok ?_
    rw [← Value.same_spellOut v, hv, hw, Value.same_spellOut]
  | .le a b, h => by
    refine matches_both ((matches_evaluate context inst a h.1).1.bind fun v v' hv => ?_)
    refine (matches_evaluate context inst b h.2).1.bind fun w w' hw => ?_
    have hle : v.le? w = v'.le? w' := by
      rw [← Value.le?_spellOut v, hv, hw, Value.le?_spellOut]
    rw [hle]
    cases v'.le? w' with
    | none => exact .error rfl
    | some answer => exact .ok rfl
  | .mem a b, h => by
    -- the element has to be the very same, which is why it must not be the role
    refine matches_both (((matches_evaluate context inst a h.2.1).2 h.1).bind fun v v' hv => ?_)
    refine (matches_evaluate context inst b h.2.2).1.bind fun w w' hw => ?_
    have hcontains : Value.contains? v w = Value.contains? v' w' := by
      rw [← Value.contains?_spellOut v w, hw, Value.contains?_spellOut, hv]
    rw [hcontains]
    cases Value.contains? v' w' with
    | none => exact .error rfl
    | some answer => exact .ok rfl

end Expr

/-- The function does not look the role of the context up in anything, and is not an enumeration,
which would look the whole context up among its members. -/
def Callable.OverlooksRole : Callable → Prop
  | .defined _ body => body.OverlooksRole
  | .enumeration _ _ => False
  | _ => True

theorem Rule.overlooksRole_body (rule : Rule) : rule.body.OverlooksRole := by
  cases rule with
  | assignedRecord => exact ⟨rfl, trivial, trivial⟩
  | equalOrLowerRank => exact ⟨trivial, trivial⟩
  | ownRecord => exact ⟨trivial, trivial⟩
  | _ => trivial

namespace Interpretation

/-- The engine sees of a value only whether it counts as true. -/
theorem verdict_of_matches {xs ys : List Value}
    (h : Matches (fun v w => v.truthy = w.truthy) (i.evaluate f xs) (i.evaluate f ys)) :
    i.verdict f xs = i.verdict f ys := by
  rw [verdict, verdict]
  generalize i.evaluate f xs = x at h ⊢
  generalize i.evaluate f ys = y at h ⊢
  cases h with
  | ok h => exact congrArg Except.ok h
  | error h => exact congrArg Except.error h

/-- A function that overlooks the role gives the same verdict on both spellings of it. -/
theorem verdict_standard (hf : f.OverlooksRole) (context : Value) (rest : List Value) :
    standard.verdict f (context.spellOutRole :: rest) = standard.verdict f (context :: rest) := by
  have hbody (inst : Value) (body : Expr) (h : body.OverlooksRole) :
      Matches (fun v w => v.truthy = w.truthy) (body.evaluate context.spellOutRole inst)
        (body.evaluate context inst) := by
    refine (Expr.matches_evaluate context inst body h).1.mono fun v w hvw => ?_
    rw [← Value.truthy_spellOut v, hvw, Value.truthy_spellOut]
  refine verdict_of_matches ?_
  cases f with
  | defined label body =>
    rcases rest with _ | ⟨inst, _ | ⟨next, rest⟩⟩
    · exact hbody .null body hf
    · exact hbody inst body hf
    · exact .error rfl
  | rule rule =>
    rcases rest with _ | ⟨inst, _ | ⟨next, rest⟩⟩
    · simp only [standard, standardEvaluate]
      split
      · exact hbody _ _ rule.overlooksRole_body
      · exact .error rfl
    · simp only [standard, standardEvaluate]
      split
      · exact hbody _ _ rule.overlooksRole_body
      · exact .error rfl
    · exact .error rfl
  | model model =>
    simp only [standard, standardEvaluate, List.length_cons]
    split
    · exact .ok rfl
    · exact .error rfl
  | enumeration name members => exact hf.elim
  | _ => exact .error rfl

end Interpretation

/-- **Predicates that compute expressions overlook the spelling of the role**, unless they look the
role up in something. -/
theorem Registry.overlooks_of_standard (hchecks : ∀ c ∈ r.checks, c.fn.OverlooksRole)
    (hlevels : ∀ name m, r.metadata? name = some m → ∀ l ∈ m.levels, l.2.fn.OverlooksRole) :
    r.Overlooks .standard context where
  checks c hc := Interpretation.verdict_standard (hchecks c hc) context []
  levels name m hm l hl inst :=
    Interpretation.verdict_standard (hlevels name m hm l hl) context [inst]

/-- A predicate that looks the role up in an enumeration accepts the member, not its text. -/
example :
    let listed : Callable := .defined "listed" (.mem (.context "role")
      (.const (.callable (.enumeration "Role" [("CLERK", .text "CLERK")]))))
    let context (role : Value) : Value := .record .principal [("role", role)]
    Interpretation.standard.verdict listed [context (.member "Role" "CLERK" (.text "CLERK"))] =
        .ok true ∧
      Interpretation.standard.verdict listed [context (.text "CLERK")] = .error "TypeError" :=
  ⟨rfl, rfl⟩

end AccessControl
