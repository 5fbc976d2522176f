import AccessControl.Proofs.CommandLine.Question

/-!
# Trying a decision out is faithful

The tool does not ask the registry of the application.  It builds one of its own, reads the
principal and the target off the command line, and reports a record that it has found in a denial or
kept itself.  All the same it shows what the application would decide, `dryRun_faithful`:

* its registry makes the same record, because the two differ in hooks only;
* the exit code and the answer that is printed are what this record says;
* if the command line describes stored users, the decision is that about these users.

## Where it is not faithful

A second separator is taken for the action, and then the action is the empty list.  No denial is
made of that: asked about users by an active account, the tool breaks off with an error instead of
ending with a code.  `breaks_off_separator` is such a command line.
-/

namespace AccessControl

namespace Inquiry

open CommandLine Rulebook

variable {p : Principal} {c u : Account} {t : Target} {resource action context : Value} {g : Given}
  {q : Query} {a : Audit} {s command : String} (logging : Bool)

/-! ## 1. What the tool asks -/

/-- The levels that a permission query names on the command line. -/
theorem hasPermission_listed {r : Registry} (levels : List String) :
    hasPermission .standard r context resource action ((listed levels).getD .null) =
      (Query.permission resource action (levels.map .text)).decide .standard r context := by
  cases levels with
  | nil => rfl
  | cons first rest =>
    have hlisted : listed (first :: rest) = some (.list ((first :: rest).map .text)) := rfl
    rw [hlisted, Option.getD_some, hasPermission_list, List.map_map]
    rfl

/-- **The tool asks its own registry** the question that the command line describes. -/
theorem exists_asks {arguments : List String} {e : Entry} (hread : tool.read arguments = .ok (e, g))
    (htrial : IsTrial e) (hresource : g.lookup "resource" = some resource)
    (haction : g.lookup "action" = some action) :
    ∃ q, Asks g resource action e.name q ∧
      (e.name = "check" → ∀ r, hasPermission .standard r (principalOf g).context resource action
        ((g.lookup "--access-level").getD .null) =
          q.decide .standard r (principalOf g).context) ∧
      (run .standard (rootOptions logging) arguments).2 =
        conclude (q.decide .standard trial (principalOf g).context) := by
  obtain ⟨he, hreadBy⟩ := Tool.readBy keysDiffer_tool hread
  have hinquiry : Inquiry.read arguments = .ok (ofCommand e.name g) := by
    rw [Inquiry.read, hread]
    rfl
  have hrun : (run .standard (rootOptions logging) arguments).2 =
      ((ofCommand e.name g).answer .standard trial).2 := by
    rw [run, hinquiry]
    simp only [execute, trialRegistry_outcome]
  rcases htrial with hname | hname
  · obtain ⟨levels, hlevels⟩ : ∃ levels, g.lookup "--access-level" = listed levels :=
      ⟨_, lookup_texts hreadBy (levelPart_subset he hname) rfl rfl⟩
    have hfilter : (((g.lookup "--access-level").map fun _ => g.texts "--access-level").map
        Value.list).getD .null = (listed levels).getD .null := by
      rw [Given.texts, hlevels]
      cases levels <;> rfl
    have hcheck : ofCommand "check" g = .check (principalOf g) resource action
        ((g.lookup "--access-level").map fun _ => g.texts "--access-level") := by
      simp only [ofCommand, hresource, haction, Option.getD_some]
    rw [hrun, hname, hcheck]
    refine ⟨_, .check levels hlevels, fun _ r => ?_, ?_⟩
    · rw [hlevels, hasPermission_listed]
    · have hanswer (levels : Option (List Value)) :
          (answer .standard trial (.check (principalOf g) resource action levels)).2 =
            conclude (hasPermission .standard trial (principalOf g).context resource action
              ((levels.map Value.list).getD .null)) := rfl
      rw [hanswer, hfilter, hasPermission_listed]
  · have hcan : ofCommand "can" g = .can (principalOf g) resource action (targetOf g) := by
      simp only [ofCommand, hresource, haction, Option.getD_some]
      rfl
    rw [hrun, hname, hcan]
    exact ⟨_, .can _ (givenBy_targetOf hreadBy (targetParts_subset he hname)),
      fun hcheck => absurd hcheck (by decide), rfl⟩

/-! ## 2. What the tool shows -/

/-- The tool shows the decision of a registry. -/
structure Shows (shown : Outcome) (r : Registry) (context : Value) (q : Query) (a : Audit)
    (text : String) : Prop where
  /-- What is shown is the record of this decision. -/
  record : q.record? .standard r context = some a
  /-- It is an allowance exactly if the registry grants. -/
  granted : (q.decide .standard r context).outcome = .ok .granted ↔ a.allowed = true
  written : Json.indented (verdict a.allowed (some a)) = .ok text
  report : shown = .ok ⟨if a.allowed then 0 else 1, text ++ "\n", ""⟩

section Conclusion

variable (hasks : Asks g (.text s) action command q) (hblank : Text.blank s = false)
  (haction : action.IsWord)

include hasks hblank haction

/-- **The decision of the application is shown.** -/
theorem Asks.exists_shows (h : ¬ Unanswerable p (.text s) action) :
    ∃ a text, Shows (conclude (q.decide .standard trial p.context)) (registry logging) p.context q
      a text := by
  obtain ⟨a, ha⟩ : ∃ a, q.record? .standard (registry logging) p.context = some a := by
    rw [← Option.ne_none_iff_exists', Ne, hasks.record?_eq_none_iff logging hblank haction]
    exact h
  obtain ⟨text, htext⟩ := hasks.exists_text logging hblank haction ha
  have htrial : q.record? .standard trial p.context = some a := by
    rw [← ha]
    exact record?_congr rfl rfl
  refine ⟨a, text, ha, hasks.granted_iff logging hblank haction ha, htext, ?_⟩
  rw [conclude_decide hasks.raisesDenial htrial, print, htext]

/-- The tool breaks off when an action that is no text would have to be looked up. -/
theorem Asks.breaks_off (h : Unanswerable p (.text s) action) :
    conclude (q.decide .standard trial p.context) =
      .error (.fault (.misuse (.unhashable "list"))) := by
  have htrial : q.record? .standard trial p.context = none := by
    rw [← (hasks.record?_eq_none_iff true hblank haction).mpr h]
    exact record?_congr rfl rfl
  have hfind : (q.find .standard trial p.context (.text p.role.name)).outcome =
      .error (.misuse (.unhashable "list")) := by
    rw [← hasks.find_separator true p.role p.context h.1 (Value.text.inj h.2.1)]
    exact congrArg Run.outcome (find_congr rfl)
  obtain ⟨asked, -, hcourse⟩ := exists_course q .standard trial p.context
  generalize q.decide .standard trial p.context = run at hcourse
  cases hcourse with
  | unanswered e _ _ he =>
    rw [p.contextRole?_context, Option.getD_some, hfind] at he
    cases he
    rfl
  | recorded a answer ending ha =>
    rw [htrial] at ha
    cases ha

/-- The exit code is 0 exactly if the application grants. -/
theorem Asks.exit_zero_iff :
    (∃ report, conclude (q.decide .standard trial p.context) = .ok report ∧ report.exit = 0) ↔
      (q.decide .standard (registry logging) p.context).outcome = .ok .granted := by
  by_cases h : Unanswerable p (.text s) action
  · rw [hasks.breaks_off hblank haction h]
    constructor
    · rintro ⟨report, hreport, -⟩
      cases hreport
    · intro hgranted
      obtain ⟨f, hf, -⟩ := exists_find_of_decide hgranted
      rw [p.contextRole?_context, Option.getD_some,
        hasks.find_separator logging p.role p.context h.1 (Value.text.inj h.2.1)] at hf
      cases hf
  · obtain ⟨a, text, hshows⟩ := hasks.exists_shows logging hblank haction h
    rw [hshows.report, hshows.granted]
    cases a.allowed <;> simp

end Conclusion

/-! ## 3. The dry run -/

/-- **Trying a decision out is faithful.**  Let a command line be read as one that tries a decision
out, about a resource whose name is not blank, and let `r` be the registry with which the
application starts.  Then the command line describes a principal and a question.

* The tool shows the decision of `r` on this question in the context of this principal: the exit
  code is 0 if `r` grants, and 1 otherwise, and what is printed is the answer with the record of the
  decision.
* There is one exception.  What looks like a separator may have been taken for the action; when it
  would have to be looked up in a rulebook, the tool breaks off with an error.
* If the principal and the target of an instance query have the attributes of stored users, the exit
  code is 0 exactly if `r` grants the first one the action on the second one. -/
theorem dryRun_faithful (logging logging' : Bool) {arguments : List String} {e : Entry} {g : Given}
    {resource : Value} {r : Registry} (hread : tool.read arguments = .ok (e, g))
    (htrial : IsTrial e) (hresource : g.lookup "resource" = some resource)
    (hproper : resource.IsProperName) (hr : (Http.Server.startRegistry logging').outcome = .ok r) :
    ∃ (p : Principal) (action : Value) (q : Query),
      p.GivenBy g ∧ g.lookup "action" = some action ∧ action.IsWord ∧
      Asks g resource action e.name q ∧
      (e.name = "check" → hasPermission .standard r p.context resource action
        ((g.lookup "--access-level").getD .null) = q.decide .standard r p.context) ∧
      (¬ Unanswerable p resource action → ∃ a text,
        Shows (run .standard (rootOptions logging) arguments).2 r p.context q a text) ∧
      (Unanswerable p resource action → (run .standard (rootOptions logging) arguments).2 =
        .error (.fault (.misuse (.unhashable "list")))) ∧
      ∀ (c u : Account) (t : Target) (context : Value), e.name = "can" → t.GivenBy g →
        p.Describes c → t.Describes u → c.user.toContext = .ok context →
        ((∃ report, (run .standard (rootOptions logging) arguments).2 = .ok report ∧
            report.exit = 0) ↔
          ((Query.instanceOf resource action u.user.toValue).decide .standard r context).outcome =
            .ok .granted) := by
  obtain ⟨he, hreadBy⟩ := Tool.readBy keysDiffer_tool hread
  have hknown := principalParts_subset he htrial
  obtain ⟨s, rfl, hblank⟩ : ∃ s, resource = .text s ∧ Text.blank s = false := by
    obtain ⟨s, hs, hblank⟩ := hproper
    obtain ⟨v, hv, hword⟩ : ∃ v, g.lookup "resource" = some v ∧ v.IsWord :=
      exists_word hreadBy hknown rfl
    rw [hresource] at hv
    cases hv
    rcases hword with ⟨text, rfl⟩ | rfl
    · cases hs
      exact ⟨s, rfl, hblank⟩
    · cases hs
  obtain ⟨action, haction, hword⟩ : ∃ action, g.lookup "action" = some action ∧ action.IsWord :=
    exists_word hreadBy hknown rfl
  obtain rfl : registry logging' = r :=
    Except.ok.inj ((startRegistry_outcome logging').symm.trans hr)
  obtain ⟨q, hasks, hcheck, hrun⟩ :=
    exists_asks logging hread htrial hresource haction
  refine ⟨principalOf g, action, q, givenBy_principalOf hreadBy hknown, haction, hword, hasks,
    fun hname => hcheck hname _, fun h => ?_, fun h => ?_, ?_⟩
  · rw [hrun]
    exact hasks.exists_shows logging' hblank hword h
  · rw [hrun]
    exact hasks.breaks_off hblank hword h
  · intro c u t context hcan hgiven hp ht hcontext
    obtain ⟨t', hgiven', hq⟩ := hasks.exists_target hcan
    rw [hgiven'.eq_targetOf, ← hgiven.eq_targetOf] at hq
    obtain rfl : c.context = context :=
      Except.ok.inj ((Account.toContext_user c).symm.trans hcontext)
    rw [← decide_described logging' hp ht hblank, ← hq, hrun]
    exact hasks.exit_zero_iff logging' hblank hword

/-- A manager tries to update the user that is assigned to it. -/
def managerLine : List String :=
  ["can", "--user-id", "m1", "--role", "MANAGER", "--assigned", "u1", "User", "UPDATE",
    "--target-id", "u1"]

/-- The manager. -/
def managerAccount : Account where
  userId := "m1"
  email := .text "m1@localhost"
  role := .manager
  rank := 2
  status := .active
  displayName := .text "Mo"
  assigned := ["u1"]

/-- The user that is assigned to the manager. -/
def assignedAccount : Account where
  userId := "u1"
  email := .text "u1@localhost"
  role := .seller
  rank := 3
  status := .pending
  displayName := .text "Uma"
  assigned := []

theorem dryRun_faithful_manager :
    ∃ report, (run .standard (rootOptions false) managerLine).2 = .ok report ∧ report.exit = 0 := by
  have hread : tool.read managerLine = .ok (_, _) := rfl
  obtain ⟨p, action, q, hp, haction, -, hasks, -, -, -, hstored⟩ :=
    dryRun_faithful false true hread (Or.inr rfl) rfl ⟨userResource, rfl, rfl⟩
      (startRegistry_outcome true)
  obtain ⟨t, ht, -⟩ := hasks.exists_target rfl
  have hmanager : p.Describes managerAccount := by
    rw [hp.eq_principalOf]
    exact ⟨rfl, rfl, rfl, rfl, by decide⟩
  have hassigned : t.Describes assignedAccount := by
    rw [ht.eq_targetOf]
    exact ⟨rfl, rfl⟩
  cases haction
  exact (hstored _ _ t _ rfl ht hmanager hassigned rfl).mpr rfl

/-- A second separator stands where the action should be. -/
def separatorLine : List String :=
  ["check", "--user-id", "u1", "--role", "ADMIN", "User", "--", "--"]

/-- The command line is read, and asks about users; but the tool breaks off without an exit code. -/
theorem breaks_off_separator :
    (∃ e g, tool.read separatorLine = .ok (e, g) ∧ e.name = "check" ∧
      g.lookup "resource" = some (.text userResource)) ∧
    ¬ ∃ report, (run .standard (rootOptions false) separatorLine).2 = .ok report := by
  have hread : Inquiry.read separatorLine =
      .ok (.check ⟨"u1", .admin, none, [], false⟩ (.text userResource) (.list []) none) := rfl
  have hrun : (run .standard (rootOptions false) separatorLine).2 =
      .error (.fault (.misuse (.unhashable "list"))) := by
    rw [run, hread]
    simp only [execute, trialRegistry_outcome]
    rfl
  refine ⟨⟨_, _, rfl, rfl, rfl⟩, ?_⟩
  rintro ⟨report, hreport⟩
  rw [hrun] at hreport
  cases hreport

end Inquiry

end AccessControl
