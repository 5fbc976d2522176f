import AccessControl.Proofs.Decision.FirstDecisive
import AccessControl.Proofs.Http.Listing
import AccessControl.Proofs.Http.Transition

/-!
# The actions on users build on one another

The routes take it for granted that the actions on users form a hierarchy.  Whoever may delete a
user may update it; to update and to read are allowed on the same users; and whoever is shown a user
in the list may read this user singly.  The engine knows nothing of this.  To the engine an action
is a name with a list of levels, and there are five such names in the rulebook.

## Where it could break

An action that is granted through more levels need not be allowed on more users.  The levels are
tried in their order, and a level that fails ends the search with a denial.  So a level that is
added in front of the others may take away what these would have allowed.  Only levels that come
after the others take nothing away: the search gets to them when it has found nothing, and not
otherwise (`accepted_append`).

Hence an action is *widened* by another one, `Registry.Widens`, if the levels of the second begin
with the levels of the first, for every role that holds any.  This is a statement about lists of
names.  Whatever the predicates do, and whoever the context and the instance are, what the first
action is allowed on, the second is allowed on (`granted_of_widens`).

In the table of the rulebook this can be looked up: the levels for deleting are the first of those
for updating, these are the levels for reading, and the levels for listing are the first of those
for reading.  The manager is the only role with two levels for an action, and the only one for whom
the order counts.

## The own record

That nobody is refused the own record is not a matter of lists.  There the predicates have to be
evaluated (`Rulebook.IsPrincipal.exists_evaluate`), and this is where the ranks have to be whole
numbers: anything else need not have an order, and then the level by rank fails.
-/

namespace AccessControl

variable {i : Interpretation} {r : Registry} {m : Metadata}
  {context resource action wider inst level : Value} {levels : List Value}

/-! ## 1. More levels -/

/-- **Levels that come later take nothing away**: what a level accepts is accepted by this level,
whatever comes after it. -/
theorem accepted_append (later : List Value)
    (h : (tryLevels i m resource context inst levels).2 = .accepted level) :
    (tryLevels i m resource context inst (levels ++ later)).2 = .accepted level := by
  induction levels with
  | nil => cases h
  | cons first rest ih =>
    rw [List.cons_append]
    cases hl : Value.find? first m.levels with
    | none =>
      simp only [tryLevels, hl] at h ⊢
      exact ih h
    | some l =>
      cases heval : i.evaluate l.fn [context, inst] with
      | error e =>
        rw [tryLevels_cons_of_error hl heval] at h
        cases h
      | ok v =>
        cases hv : v.truthy with
        | true =>
          rw [tryLevels_cons_of_accepted hl heval hv] at h ⊢
          exact h
        | false =>
          rw [tryLevels_cons_of_passed hl heval hv] at h ⊢
          exact ih h

/-- Whoever holds levels for the first action on the resource holds them for the second as well: the
same ones in the same order, and perhaps others after them. -/
def Registry.Widens (r : Registry) (resource action wider : Value) : Prop :=
  ∀ role found, r.heldLevels role resource.name action.name = .ok found → found ≠ [] →
    ∃ later, r.heldLevels role resource.name wider.name = .ok (found ++ later)

/-- An instance query that is allowed has tried the levels held, and one of them has accepted. -/
theorem exists_accepted_of_allows (hc : r.Accepts i context)
    (h : (Query.instanceOf resource action inst).allows i r context = true) :
    ∃ m found, r.resourceDefinition resource.name = .ok (some m) ∧
      r.contextLevels context resource action = .ok found ∧ found ≠ [] ∧
      ∃ level, (tryLevels i m resource.name context inst found).2 = .accepted level := by
  obtain ⟨f, hf, hallow⟩ := (allows_iff hc).mp h
  rw [Query.find] at hf
  rcases answerInstance_cases i r context ((contextRole? context).getD .null) resource.name
    action.name inst with ⟨e, -, hrun⟩ | ⟨id, message, -, hrun⟩ | ⟨m, found, hheld, hne, hdef, -⟩
  · rw [hrun] at hf
    cases hf
  · rw [hrun] at hf
    cases hf
    cases hallow
  · exact ⟨m, found, hdef, hheld, hne, (allows_instanceOf_iff hc hheld hne hdef).mp h⟩

/-- **What an action is allowed on, a wider action is allowed on**, if the sink takes the record. -/
theorem granted_of_widens (hsink : r.SinkWorks i) (hwidens : r.Widens resource action wider)
    (h : ((Query.instanceOf resource action inst).decide i r context).outcome = .ok .granted) :
    ((Query.instanceOf resource wider inst).decide i r context).outcome = .ok .granted := by
  have hc : r.Accepts i context := accepts_of_decide_ok h
  obtain ⟨hallows, -⟩ := (decide_instanceOf_iff hc).mp h
  obtain ⟨m, found, hdef, hheld, hne, level, haccepted⟩ := exists_accepted_of_allows hc hallows
  obtain ⟨later, hlater⟩ := hwidens _ found hheld hne
  have hallows' : (Query.instanceOf resource wider inst).allows i r context = true :=
    (allows_instanceOf_iff hc hlater (List.append_ne_nil_of_left_ne_nil hne later) hdef).mpr
      ⟨level, accepted_append later haccepted⟩
  exact (decide_instanceOf_iff hc).mpr ⟨hallows', fun a _ => hsink a⟩

/-- A role is its text. -/
theorem Registry.heldLevels_of_text? (r : Registry) {role : Value} {name : String}
    (hname : role.text? = some name) (resource action : Value) :
    r.heldLevels role resource action = r.heldLevels (.text name) resource action := by
  have hgrant : ∀ m, grantFor? m role = grantFor? m (.text name) := by
    intro m
    rw [grantFor?_of_isText m ⟨name, hname⟩, grantFor?_of_isText m (Value.isText_text name), hname,
      Value.text?_text]
  simp only [Registry.heldLevels, hgrant]

namespace Rulebook

variable {logging : Bool} {a b : UserAction} {role : Value}

/-! ## 2. The table -/

/-- Who holds levels for an action on users has one of the five roles, and the levels are those of
the table. -/
theorem exists_role_of_heldLevels {found : List Value}
    (h : (registry logging).heldLevels role userMember.name a.member.name = .ok found)
    (hne : found ≠ []) :
    ∃ known : Role, role.text? = some known.name ∧ found = (levelsOf known a).map levelName := by
  have hdef : (registry logging).resourceDefinition userMember.name = .ok (some metadata) := rfl
  have hheld := h
  rw [Registry.heldLevels, hdef, ok_bind, bind_eq_ok_iff] at h
  obtain ⟨granted, hgrant, h⟩ := h
  cases granted with
  | none =>
    cases h
    exact absurd rfl hne
  | some g =>
    rw [grantFor?, bind_eq_ok_iff] at hgrant
    obtain ⟨-, -, hgrant⟩ := hgrant
    obtain ⟨name, hname, hlookup⟩ := Option.bind_eq_some_iff.mp (Except.ok.inj hgrant)
    obtain ⟨known, -, hknown⟩ := List.mem_map.mp (mem_of_lookup hlookup)
    obtain ⟨rfl, -⟩ := Prod.mk.inj hknown
    rw [Registry.heldLevels_of_text? _ hname, heldLevels_registry] at hheld
    exact ⟨known, hname, (Except.ok.inj hheld).symm⟩

/-- An action is widened by another if its levels in the table are the first of the other's. -/
theorem widens_of_levels (h : ∀ known : Role, levelsOf known a <+: levelsOf known b) :
    (registry logging).Widens userMember a.member b.member := by
  intro role found hheld hne
  obtain ⟨known, hname, rfl⟩ := exists_role_of_heldLevels hheld hne
  obtain ⟨later, hlater⟩ := h known
  refine ⟨later.map levelName, ?_⟩
  rw [Registry.heldLevels_of_text? _ hname, heldLevels_registry, ← hlater, List.map_append]

theorem levelsOf_delete_prefix (known : Role) :
    levelsOf known .delete <+: levelsOf known .update := by
  cases known <;> decide

theorem levelsOf_update_eq (known : Role) : levelsOf known .update = levelsOf known .read := by
  cases known <;> rfl

theorem levelsOf_list_prefix (known : Role) : levelsOf known .list <+: levelsOf known .read := by
  cases known <;> decide

/-- The principal of the context may apply the action to the instance: the engine answers that it
is granted. -/
def Allows (r : Registry) (context : Value) (a : UserAction) (inst : Value) : Prop :=
  ((Query.instanceOf userMember a.member inst).decide .standard r context).outcome = .ok .granted

/-- What an action is allowed on, an action is allowed on whose levels begin with the same ones. -/
theorem allows_of_levels (h : ∀ known : Role, levelsOf known a <+: levelsOf known b)
    (hallows : Allows (registry logging) context a inst) :
    Allows (registry logging) context b inst :=
  granted_of_widens (sinkWorks_registry logging) (widens_of_levels h) hallows

/-! ## 3. The own record -/

/-- The context is an active principal of the application, with an id, one of the five roles and a
whole number as the rank; any ids may be assigned to it. -/
structure IsPrincipal (context userId : Value) (known : Role) (rank : Int) : Prop where
  userId : context.field? "user_id" = some userId
  role : ∃ v, context.field? "role" = some v ∧ v.text? = some known.name
  rank : context.field? "rank" = some (.int rank)
  active : ∃ v, context.field? "is_active" = some v ∧ v.truthy = true
  assigned : ∃ ids, context.field? "assigned_users" = some (.tuple ids)

section Own

variable {context userId : Value} {known : Role} {rank : Int} {u : User}

theorem IsPrincipal.contextRole? (hc : IsPrincipal context userId known rank) :
    contextRole? context = some (.text known.name) := by
  obtain ⟨v, hv, hname⟩ := hc.role
  have htruthy : v.truthy = true := by
    rcases Value.eq_of_text? hname with rfl | ⟨e, n, rfl⟩
    · cases known <;> rfl
    · cases known <;> rfl
  rw [AccessControl.contextRole?, hv]
  simp only [htruthy, if_true, Value.name_of_text? hname]

/-- An active principal counts. -/
theorem IsPrincipal.accepts (hc : IsPrincipal context userId known rank) :
    (registry logging).Accepts .standard context where
  bound := by
    cases context with
    | null => cases hc.userId
    | _ => rfl
  hasRole := by
    rw [hc.contextRole?]
    rfl
  passes := by
    intro check hcheck
    obtain ⟨v, hv, htruthy⟩ := hc.active
    rw [List.mem_singleton.mp hcheck]
    refine ⟨v, ?_, htruthy⟩
    change Expr.contextField context "is_active" = .ok v
    rw [Expr.contextField, hv]

theorem IsPrincipal.contextLevels (hc : IsPrincipal context userId known rank) (a : UserAction) :
    (registry logging).contextLevels context userMember a.member =
      .ok ((levelsOf known a).map levelName) := by
  rw [Registry.contextLevels, hc.contextRole?]
  exact heldLevels_registry logging known a

/-- **On the own record no level fails**, and every level but that of the assigned users extends to
it. -/
theorem IsPrincipal.exists_evaluate (hc : IsPrincipal context userId known rank)
    (hid : userId.same u.userId = true) (hrank : u.rank = .int rank) (l : UserLevel) :
    ∃ b, Interpretation.standard.evaluate (.rule l.rule) [context, u.toValue] = .ok (.bool b) ∧
      (l ≠ .assigned → b = true) := by
  cases l with
  | all => exact ⟨true, rfl, fun _ => rfl⟩
  | byRank =>
    have hcontext : Expr.contextField context "rank" = .ok (.int rank) := by
      rw [Expr.contextField, hc.rank]
    have hinst : Expr.resourceField u.toValue "rank" = .ok (.int rank) := congrArg Except.ok hrank
    refine ⟨decide (rank ≤ rank), ?_, fun _ => decide_eq_true (Int.le_refl rank)⟩
    change Expr.evaluate context u.toValue (.le (.context "rank") (.resource "rank")) = _
    simp only [Expr.evaluate, hcontext, hinst, ok_bind]
    rfl
  | own =>
    have hcontext : Expr.contextField context "user_id" = .ok userId := by
      rw [Expr.contextField, hc.userId]
    have hinst : Expr.resourceField u.toValue "user_id" = .ok u.userId := rfl
    refine ⟨true, ?_, fun _ => rfl⟩
    change Expr.evaluate context u.toValue (.eq (.context "user_id") (.resource "user_id")) = _
    simp only [Expr.evaluate, hcontext, hinst, ok_bind, hid]
    rfl
  | assigned =>
    obtain ⟨ids, hids⟩ := hc.assigned
    have hcontext : Expr.contextField context "assigned_users" = .ok (.tuple ids) := by
      rw [Expr.contextField, hids]
    have hinst : Expr.resourceField u.toValue "user_id" = .ok u.userId := rfl
    refine ⟨ids.any (Value.same · u.userId), ?_, fun h => absurd rfl h⟩
    change Expr.evaluate context u.toValue
      (.mem (.resource "user_id") (.context "assigned_users")) = _
    simp only [Expr.evaluate, hcontext, hinst, ok_bind]
    rfl

/-- So of any levels one accepts the own record, unless they are all levels of the assigned
users. -/
theorem IsPrincipal.exists_accepted (hc : IsPrincipal context userId known rank)
    (hid : userId.same u.userId = true) (hrank : u.rank = .int rank) {levels : List UserLevel}
    (hlevels : ∃ l ∈ levels, l ≠ .assigned) (resource : Value) :
    ∃ level, (tryLevels .standard metadata resource context u.toValue
      (levels.map levelName)).2 = .accepted level := by
  induction levels with
  | nil =>
    obtain ⟨l, hl, -⟩ := hlevels
    cases hl
  | cons first rest ih =>
    obtain ⟨b, hb, hextends⟩ := hc.exists_evaluate hid hrank first
    rw [List.map_cons]
    cases b with
    | true =>
      rw [tryLevels_cons_of_accepted (find?_levelName first) hb rfl]
      exact ⟨_, rfl⟩
    | false =>
      rw [tryLevels_cons_of_passed (find?_levelName first) hb rfl]
      have hassigned : first = .assigned := by
        by_contra hne
        exact Bool.noConfusion (hextends hne)
      rw [List.exists_mem_cons_iff] at hlevels
      exact ih (hlevels.resolve_left fun hne => hne hassigned)

/-- **The own record may be read and updated.** -/
theorem IsPrincipal.allows_own (hc : IsPrincipal context userId known rank)
    (hid : userId.same u.userId = true) (hrank : u.rank = .int rank) :
    Allows (registry logging) context .read u.toValue := by
  obtain ⟨l, hl, hother⟩ : ∃ l ∈ levelsOf known .read, l ≠ .assigned := by
    cases known <;> decide
  have hne : (levelsOf known .read).map levelName ≠ [] := by
    simpa using List.ne_nil_of_mem hl
  have hallows : (Query.instanceOf userMember UserAction.read.member u.toValue).allows .standard
      (registry logging) context = true :=
    (allows_instanceOf_iff hc.accepts (hc.contextLevels .read) hne rfl).mpr
      (hc.exists_accepted hid hrank ⟨l, hl, hother⟩ _)
  exact (decide_instanceOf_iff hc.accepts).mpr
    ⟨hallows, fun record _ => sinkWorks_registry logging record⟩

end Own

end Rulebook

/-! ## 4. The list of users -/

namespace Http.UserRoutes

open Handler Rulebook

variable {logging : Bool} {context : Value} {d : Directory} {response : Response}

/-- **Who is shown in the list** may be listed singly: the rows are those of some users of the
directory, in its order, and for each of these the engine allows the caller to list it. -/
theorem exists_shown
    (h : ((list ⟨.standard, registry logging, .resolved context⟩).run d).outcome = .ok response) :
    ∃ users shown rows, d.list = .ok users ∧ shown.Sublist users ∧
      response = Response.json 200 (.list rows) ∧
      List.Forall₂ (fun u row => present u = .ok row) shown rows ∧
      ∀ u ∈ shown, Allows (registry logging) context .list u.toValue := by
  have ha := harmless_access logging (.resolved context)
  rw [list] at h
  obtain ⟨given, hgiven, h⟩ := (Access.quiet_permitted ha .list).exists_of_ok h
  obtain ⟨hcaller, hc⟩ := Access.permitted_ok ha hgiven
  cases hcaller
  obtain ⟨answer, hanswer, h⟩ := (Access.quiet_decide ha _ _).exists_of_ok h
  obtain ⟨users, husers, -⟩ := (quiet_ask rfl).exists_of_ok h
  have husers : d.list = .ok users := mapError_eq_ok_iff.mp husers
  rw [outcome_rows husers, map_eq_ok_iff] at h
  obtain ⟨rows, hrows, rfl⟩ := h
  refine ⟨users, _, rows, husers, List.filter_sublist, rfl, mapM_eq_ok_iff.mp hrows, ?_⟩
  intro u hu
  have hvisible := (List.mem_filter.mp hu).2
  have hanswer := ok_of_ofRun hanswer
  -- the levels are those of the answer; without any of them nobody is visible
  cases answer with
  | granted => cases hvisible
  | levels found =>
    cases found with
    | none => cases hvisible
    | some granted =>
      have hallows :=
        (visible_eq_allows (reachable_registry logging) hc hanswer u).symm.trans hvisible
      exact (decide_instanceOf_iff hc).mpr ⟨hallows, fun a _ => sinkWorks_registry logging a⟩

end Http.UserRoutes

namespace Rulebook

/-- **The rulebook is hierarchical.**  Let `r` be the registry that the application builds.
Whoever the context is, and whatever the instance is:

* who may delete may update;
* to update and to read are allowed on the same instances;
* who may list may read.

Hence, if the list of users is answered at all, each of the users that it shows may be read singly
by the same caller.

And an active principal may read and update its own record, which is one with the same id and the
same rank. -/
theorem hierarchical {logging : Bool} {r : Registry}
    (hstart : (Http.Server.startRegistry logging).outcome = .ok r) :
    (∀ context inst, Allows r context .delete inst → Allows r context .update inst) ∧
    (∀ context inst, Allows r context .update inst ↔ Allows r context .read inst) ∧
    (∀ context inst, Allows r context .list inst → Allows r context .read inst) ∧
    (∀ context d response,
      ((Http.UserRoutes.list ⟨.standard, r, .resolved context⟩).run d).outcome = .ok response →
      ∃ users shown rows, d.list = .ok users ∧ shown.Sublist users ∧
        response = Http.Response.json 200 (.list rows) ∧
        List.Forall₂ (fun u row => Http.present u = .ok row) shown rows ∧
        ∀ u ∈ shown, Allows r context .read u.toValue) ∧
    (∀ context userId known rank (u : User), IsPrincipal context userId known rank →
      userId.same u.userId = true → u.rank = .int rank →
      Allows r context .read u.toValue ∧ Allows r context .update u.toValue) := by
  cases (startRegistry_outcome logging).symm.trans hstart
  have hread : ∀ context inst, Allows (registry logging) context .read inst →
      Allows (registry logging) context .update inst := fun context inst =>
    allows_of_levels fun known => levelsOf_update_eq known ▸ List.prefix_refl _
  have hlist : ∀ context inst, Allows (registry logging) context .list inst →
      Allows (registry logging) context .read inst := fun context inst =>
    allows_of_levels levelsOf_list_prefix
  refine ⟨fun context inst => allows_of_levels levelsOf_delete_prefix, fun context inst => ?_,
    hlist, ?_, ?_⟩
  · exact ⟨allows_of_levels fun known => levelsOf_update_eq known ▸ List.prefix_refl _,
      hread context inst⟩
  · intro context d response h
    obtain ⟨users, shown, rows, husers, hsub, hresponse, hrows, hallows⟩ :=
      Http.UserRoutes.exists_shown h
    exact ⟨users, shown, rows, husers, hsub, hresponse, hrows,
      fun u hu => hlist context _ (hallows u hu)⟩
  · intro context userId known rank u hc hid hrank
    have hown : Allows (registry logging) context .read u.toValue := hc.allows_own hid hrank
    exact ⟨hown, hread context _ hown⟩

/-- The context of a manager who has an agent. -/
def managerOfAgent : Value :=
  .record .context
    [("user_id", .text "m1"), ("role", Role.manager.member), ("rank", .int 2),
      ("is_active", .bool true), ("assigned_users", .tuple [.text "g1"])]

open Http.UserRoutes in
/-- The case of a manager.  The agent may be listed, and so it may be read; so may everybody whom
the list shows, which is the agent alone.  The manager's own record may be read and updated; it may
not be listed. -/
theorem hierarchical_manager :
    (Http.Server.startRegistry true).outcome = .ok (registry true) ∧
    Allows (registry true) managerOfAgent .list (userOfRank "g1" (.int 3)).toValue ∧
    Allows (registry true) managerOfAgent .read (userOfRank "g1" (.int 3)).toValue ∧
    (∃ users shown rows,
      (⟨[userOfRank "m1" (.int 2), userOfRank "g1" (.int 3)]⟩ : Directory).list = .ok users ∧
      shown.Sublist users ∧
      List.Forall₂ (fun u row => Http.present u = .ok row) shown rows ∧ rows.length = 1 ∧
      ∀ u ∈ shown, Allows (registry true) managerOfAgent .read u.toValue) ∧
    IsPrincipal managerOfAgent (.text "m1") .manager 2 ∧
    Allows (registry true) managerOfAgent .read (userOfRank "m1" (.int 2)).toValue ∧
    Allows (registry true) managerOfAgent .update (userOfRank "m1" (.int 2)).toValue ∧
    ¬ Allows (registry true) managerOfAgent .list (userOfRank "m1" (.int 2)).toValue := by
  have hstart := startRegistry_outcome true
  have hlist : Allows (registry true) managerOfAgent .list (userOfRank "g1" (.int 3)).toValue := rfl
  have hc : IsPrincipal managerOfAgent (.text "m1") .manager 2 :=
    ⟨rfl, ⟨_, rfl, rfl⟩, rfl, ⟨_, rfl, rfl⟩, ⟨_, rfl⟩⟩
  obtain ⟨-, -, hread, hshown, hown⟩ := hierarchical hstart
  obtain ⟨users, shown, rows, husers, hsub, hresponse, hrows, hallows⟩ :=
    hshown managerOfAgent ⟨[userOfRank "m1" (.int 2), userOfRank "g1" (.int 3)]⟩ _ rfl
  cases hresponse
  obtain ⟨hownRead, hownUpdate⟩ :=
    hown _ _ _ _ (userOfRank "m1" (.int 2)) hc (Value.same_text _ _) rfl
  refine ⟨hstart, hlist, hread _ _ hlist, ⟨users, shown, _, husers, hsub, hrows, rfl, hallows⟩, hc,
    hownRead, hownUpdate, ?_⟩
  intro h
  cases h

end Rulebook

end AccessControl
