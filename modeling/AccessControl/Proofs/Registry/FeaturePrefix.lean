import AccessControl.Proofs.Registry.FeatureOrder

/-!
# A feature is carried out up to its first fault

A feature supplies several rulebooks at once, and any of its entries can be at fault: its resource
is not declared, or has a rulebook already, or the rulebook that it offers is not accepted.  There
is no going back then.  What stands before the entry is in place and stays, and what comes after it
is not looked at: `initResources_commits_prefix`.

## Which entry is the first

Whether an entry is at fault is a question about the registry that it is offered to, and this one
has the entries before it already.  So a block may well name a resource twice; the second entry is
at fault then, whatever it offers, although neither of them is at fault by itself.  `Admits` says
this for a whole block, and `defineAll_cases` is the induction on its entries.

## Trying again

A feature that failed cannot be repaired by adding what was missing and giving it once more.  Its
first entry is in the way: if anything was put in place, then so was this entry, and a rulebook
that is in place is never given up (`Extends`).
-/

namespace AccessControl

namespace Registry

variable {r s : Registry} {e : FeatureEntry} {entries : List FeatureEntry} {fault : Fault}
  {v : Value}

/-- The registry turns the entry down, with this error. -/
inductive TurnsDown (r : Registry) (e : FeatureEntry) : Fault → Prop
  | undeclared (h : r.hasResource e.name = false) : TurnsDown r e (.unknownResource e.name)
  | defined (h : (r.metadata? e.name).isSome = true) :
      TurnsDown r e (.definition e.name .redefined)
  | rejected {fault : Fault} (hdeclared : r.hasResource e.name = true)
      (hfree : r.metadata? e.name = none)
      (h : r.addResource (.text e.name) e.definition.toValue = .error fault) : TurnsDown r e fault

/-- The registry with the resources of a block added one after the other. -/
def addEntries (r : Registry) (entries : List FeatureEntry) : Except Fault Registry :=
  entries.foldlM (fun s e => s.addResource (.text e.name) e.definition.toValue) r

/-- No entry of the block is turned down by the registry that has the entries before it. -/
def Admits (r : Registry) (entries : List FeatureEntry) : Prop :=
  ∀ before e rest s fault, entries = before ++ e :: rest → r.addEntries before = .ok s →
    ¬ s.TurnsDown e fault

/-! ## 1. One entry -/

/-- A resource with a rulebook is declared. -/
theorem hasResource_of_metadata? {name : String} (h : (r.metadata? name).isSome = true) :
    r.hasResource name = true := by
  cases hdeclared : r.hasResource name with
  | true => rfl
  | false =>
    rw [metadata?_eq_none_of_not_declared hdeclared] at h
    cases h

/-- A registry turns an entry down exactly when there is no rulebook for it to put in place.  The
name of an entry that is not blank is needed: a blank one that was declared would be refused for
being blank. -/
theorem turnsDown_iff (hr : r.ProperlyNamed) :
    r.TurnsDown e fault ↔ r.rulebookOf e = .error fault := by
  have hblank : r.hasResource e.name = true → Text.blank e.name = false :=
    fun hdeclared => hr e.name hdeclared
  constructor
  · intro h
    cases h with
    | undeclared h => simp only [rulebookOf, h, Bool.not_false, if_true]
    | defined h =>
      have hdeclared := hasResource_of_metadata? h
      simp only [rulebookOf, hdeclared, hblank hdeclared, h, Bool.not_true, Bool.false_eq_true,
        if_false, if_true]
    | rejected hdeclared hfree h =>
      rw [addResource_eq_rulebookOf hdeclared] at h
      cases hbook : r.rulebookOf e with
      | error fault' =>
        rw [hbook] at h
        cases h
        rfl
      | ok m =>
        rw [hbook] at h
        cases h
  · intro h
    cases hdeclared : r.hasResource e.name with
    | false =>
      have hunknown : r.rulebookOf e = .error (.unknownResource e.name) := by
        simp only [rulebookOf, hdeclared, Bool.not_false, if_true]
      rw [h] at hunknown
      cases hunknown
      exact .undeclared hdeclared
    | true =>
      cases hfree : r.metadata? e.name with
      | some m =>
        have hdefined : (r.metadata? e.name).isSome = true := by rw [hfree]; rfl
        have htaken : r.rulebookOf e = .error (.definition e.name .redefined) := by
          simp only [rulebookOf, hdeclared, hblank hdeclared, hdefined, Bool.not_true,
            Bool.false_eq_true, if_false, if_true]
        rw [h] at htaken
        cases htaken
        exact .defined hdefined
      | none =>
        refine .rejected hdeclared hfree ?_
        rw [addResource_eq_rulebookOf hdeclared, h]
        rfl

/-- An entry that is not turned down is added by putting its rulebook in place. -/
theorem addResource_of_rulebookOf {m : Metadata} (h : r.rulebookOf e = .ok m) :
    r.addResource (.text e.name) e.definition.toValue = .ok (r.install e.name m) := by
  rw [addResource_eq_rulebookOf (hasResource_of_rulebookOf h), h]
  rfl

/-! ## 2. A block of entries -/

theorem admits_nil (r : Registry) : r.Admits [] := by
  intro before e rest s fault h
  cases before with
  | nil => cases h
  | cons _ _ => cases h

/-- A block is admitted if its first entry is, and the others are once this one is in place. -/
theorem admits_cons (hfirst : ∀ fault, ¬ r.TurnsDown e fault)
    (hadd : r.addResource (.text e.name) e.definition.toValue = .ok s) (hrest : s.Admits entries) :
    r.Admits (e :: entries) := by
  intro before e' rest t fault hsplit ht
  cases before with
  | nil =>
    cases hsplit
    cases ht
    exact hfirst fault
  | cons _ before =>
    cases hsplit
    rw [addEntries, List.foldlM_cons, hadd, ok_bind] at ht
    exact hrest before e' rest t fault rfl ht

/-- **A block is carried out up to the first entry that is turned down.**  The induction is on the
block: an entry that is put in place joins the beginning that was carried out. -/
theorem defineAll_cases (hr : r.ProperlyNamed) (entries : List FeatureEntry) :
    ((r.defineAll entries).2.outcome = .ok () ∧ r.Admits entries ∧
      r.addEntries entries = .ok (r.defineAll entries).1) ∨
    ∃ before e rest fault, entries = before ++ e :: rest ∧ r.Admits before ∧
      r.addEntries before = .ok (r.defineAll entries).1 ∧
      (r.defineAll entries).1.TurnsDown e fault ∧
      (r.defineAll entries).2.outcome = .error fault := by
  induction entries generalizing r with
  | nil => exact .inl ⟨rfl, admits_nil r, rfl⟩
  | cons e entries ih =>
    cases hbook : r.rulebookOf e with
    | error fault =>
      rw [defineAll_of_rejected hbook]
      exact .inr ⟨[], e, entries, fault, rfl, admits_nil r, rfl, (turnsDown_iff hr).mpr hbook, rfl⟩
    | ok m =>
      have hadd := addResource_of_rulebookOf hbook
      have hadmitted : ∀ fault, ¬ r.TurnsDown e fault := by
        intro fault hdown
        rw [turnsDown_iff hr, hbook] at hdown
        cases hdown
      have hentries : ∀ block,
          r.addEntries (e :: block) = (r.install e.name m).addEntries block := by
        intro block
        rw [addEntries, List.foldlM_cons, hadd]
        rfl
      rw [defineAll_of_accepted hbook]
      rcases ih (hr.addResource hadd) with ⟨hok, hall, hfinal⟩ |
        ⟨before, e', rest, fault, hsplit, hbefore, hfinal, hdown, herror⟩
      · exact .inl ⟨hok, admits_cons hadmitted hadd hall, (hentries entries).trans hfinal⟩
      · exact .inr ⟨e :: before, e', rest, fault, congrArg (e :: ·) hsplit,
          admits_cons hadmitted hadd hbefore, (hentries before).trans hfinal, hdown, herror⟩

/-- A feature does not change which resources there are. -/
theorem resourceNames_defineAll (r : Registry) (entries : List FeatureEntry) :
    (r.defineAll entries).1.resourceNames = r.resourceNames := by
  induction entries generalizing r with
  | nil => rfl
  | cons e entries ih =>
    cases hbook : r.rulebookOf e with
    | error fault => rw [defineAll_of_rejected hbook]
    | ok m =>
      have hdeclared := isSome_lookup_iff.mp (hasResource_of_rulebookOf hbook)
      rw [defineAll_of_accepted hbook]
      refine (ih (r.install e.name m)).trans ?_
      rw [resourceNames, install, keys_assign, if_pos hdeclared]
      rfl

/-- If anything has been put in place then the first entry has. -/
theorem first_of_defineAll {name : String} (hfree : r.metadata? name = none)
    (hdefined : ((r.defineAll entries).1.metadata? name).isSome = true) :
    ∃ e rest m, entries = e :: rest ∧ r.rulebookOf e = .ok m := by
  cases entries with
  | nil =>
    rw [defineAll, hfree] at hdefined
    cases hdefined
  | cons e rest =>
    cases hbook : r.rulebookOf e with
    | error fault =>
      rw [defineAll_of_rejected hbook, hfree] at hdefined
      cases hdefined
    | ok m => exact ⟨e, rest, m, rfl, hbook⟩

/-- A rulebook that a block has put in place is in the way of the block ever after. -/
theorem defineAll_again {rest : List FeatureEntry} {m : Metadata} (hbook : r.rulebookOf e = .ok m)
    (hlater : ((r.defineAll (e :: rest)).1).Extends s) (hs : s.ProperlyNamed) :
    s.defineAll (e :: rest) = (s, Run.fail (.definition e.name .redefined)) := by
  have hplaced : (r.install e.name m).metadata? e.name = some m := by
    rw [metadata?, install, lookup_assign, if_pos rfl]
    rfl
  have hkept : (r.defineAll (e :: rest)).1.metadata? e.name = some m := by
    rw [defineAll_of_accepted hbook]
    exact (grows_of_defineAll (r.install e.name m) rest).extends.rulebooks e.name m hplaced
  have hstill : (s.metadata? e.name).isSome = true := by
    rw [hlater.rulebooks e.name m hkept]
    rfl
  exact defineAll_of_rejected ((turnsDown_iff hs).mp (.defined hstill))

/-! ## 3. The options of a feature -/

theorem initResources_of_parse_error (h : FeatureOptions.parse v = .error fault) :
    r.initResources v = (r, ⟨failureEvents fault, .error fault⟩) := by
  rw [initResources, h]

/-- What comes of a feature whose options can be read is what comes of its entries; only a line
of the log is added if it fails. -/
theorem initResources_of_parse_ok {options : FeatureOptions}
    (h : FeatureOptions.parse v = .ok options) :
    (r.initResources v).1 = (r.defineAll options.resources).1 ∧
      (r.initResources v).2.outcome = (r.defineAll options.resources).2.outcome := by
  rw [initResources, h]
  simp only
  split
  · rename_i hok
    exact ⟨rfl, rfl⟩
  · rename_i fault herror
    exact ⟨rfl, herror.symm⟩

/-- **A feature is carried out up to its first fault.**  Let a registry have come about in any way,
and let any value be given to it as the options of a feature.

* If the options cannot be read, nothing changes, and the error is the one of reading them.
* Otherwise either no entry is turned down, all of them are added, and the feature succeeds; or it
  fails with the error of the first entry that is turned down, and the entries before this one are
  added.  It succeeds exactly when no entry is turned down.
* The resources that there are stay the same, in the same order.
* If it puts any rulebook in place, then the same options fail ever after, whatever is done to the
  registry in between: a resource is defined already.  The registry is then left as it is. -/
theorem initResources_commits_prefix (hr : r.Reachable) (v : Value) :
    (∀ fault, FeatureOptions.parse v = .error fault →
      (r.initResources v).1 = r ∧ (r.initResources v).2.outcome = .error fault) ∧
    (∀ options, FeatureOptions.parse v = .ok options →
      ((r.initResources v).2.outcome = .ok () ↔ r.Admits options.resources) ∧
      (((r.initResources v).2.outcome = .ok () ∧
          r.addEntries options.resources = .ok (r.initResources v).1) ∨
        ∃ before e rest fault, options.resources = before ++ e :: rest ∧ r.Admits before ∧
          r.addEntries before = .ok (r.initResources v).1 ∧
          (r.initResources v).1.TurnsDown e fault ∧
          (r.initResources v).2.outcome = .error fault)) ∧
    (r.initResources v).1.resourceNames = r.resourceNames ∧
    ∀ name, r.metadata? name = none → ((r.initResources v).1.metadata? name).isSome = true →
      ∀ commands, ∃ resource,
        ((Command.applyAll (r.initResources v).1 commands).initResources v).1 =
          Command.applyAll (r.initResources v).1 commands ∧
        ((Command.applyAll (r.initResources v).1 commands).initResources v).2.outcome =
          .error (.definition resource .redefined) := by
  refine ⟨fun fault hparse => ?_, fun options hparse => ?_, ?_, ?_⟩
  · rw [initResources_of_parse_error hparse]
    exact ⟨rfl, rfl⟩
  · obtain ⟨hfinal, houtcome⟩ := initResources_of_parse_ok (r := r) hparse
    rw [hfinal, houtcome]
    rcases defineAll_cases hr.properlyNamed options.resources with ⟨hok, hall, hadded⟩ |
      ⟨before, e, rest, fault, hsplit, hbefore, hadded, hdown, herror⟩
    · exact ⟨⟨fun _ => hall, fun _ => hok⟩, .inl ⟨hok, hadded⟩⟩
    · refine ⟨⟨fun hok => ?_, fun hall => ?_⟩,
        .inr ⟨before, e, rest, fault, hsplit, hbefore, hadded, hdown, herror⟩⟩
      · rw [herror] at hok
        cases hok
      · exact absurd hdown (hall before e rest _ fault hsplit hadded)
  · rw [initResources_fst]
    exact resourceNames_defineAll r _
  · intro name hfree hdefined commands
    have hlater : (Command.applyAll (r.initResources v).1 commands).ProperlyNamed :=
      ((hr.step (.initResources v)).applyAll commands).properlyNamed
    have hextends : (r.initResources v).1.Extends
        (Command.applyAll (r.initResources v).1 commands) := (grows_of_applyAll _ commands).extends
    generalize Command.applyAll (r.initResources v).1 commands = later at *
    cases hparse : FeatureOptions.parse v with
    | error fault =>
      rw [initResources_of_parse_error hparse, hfree] at hdefined
      cases hdefined
    | ok options =>
      rw [(initResources_of_parse_ok hparse).1] at hdefined hextends
      obtain ⟨e, rest, m, hentries, hbook⟩ := first_of_defineAll hfree hdefined
      obtain ⟨hfinal, houtcome⟩ := initResources_of_parse_ok (r := later) hparse
      rw [hentries] at hextends hfinal houtcome
      rw [defineAll_again hbook hextends hlater] at hfinal houtcome
      exact ⟨e.name, hfinal, houtcome⟩

/-- A feature that supplies the rulebook for users and then another one for them. -/
def twiceUserFeature : Value :=
  .map [(.text "resources", .list (List.replicate 2 (.map
    [(.text "name", .text Rulebook.userResource),
      (.text "definition", Rulebook.userDefinition.toValue)])))]

/-- The case of this feature: the first entry is put in place, the second one is turned down, and
from then on the whole feature is. -/
theorem initResources_commits_prefix_twice :
    (Rulebook.declared true).Reachable ∧
    ((Rulebook.declared true).initResources twiceUserFeature).2.outcome =
      .error (.definition Rulebook.userResource .redefined) ∧
    ((Rulebook.declared true).initResources twiceUserFeature).1.metadata? Rulebook.userResource =
      some Rulebook.metadata ∧
    ((Rulebook.declared true).initResources twiceUserFeature).1.resourceNames =
      [Rulebook.userResource] ∧
    ∃ resource, (((Rulebook.declared true).initResources twiceUserFeature).1.initResources
      twiceUserFeature).2.outcome = .error (.definition resource .redefined) := by
  have hr : (Rulebook.declared true).Reachable :=
    .fromOptions (Rulebook.fromOptions_rootOptions true)
  obtain ⟨-, -, hnames, hagain⟩ := initResources_commits_prefix hr twiceUserFeature
  have hparse : FeatureOptions.parse twiceUserFeature = .ok ⟨List.replicate 2
      ⟨Rulebook.userResource, Rulebook.userDefinition⟩⟩ := rfl
  have hall : (Rulebook.declared true).defineAll (List.replicate 2
      ⟨Rulebook.userResource, Rulebook.userDefinition⟩) =
        (Rulebook.registry true,
          ⟨additionEvents Rulebook.userResource Rulebook.userDefinition.toValue ++ [],
            .error (.definition Rulebook.userResource .redefined)⟩) := by
    have hdeclared : (Rulebook.declared true).hasResource Rulebook.userResource = true := rfl
    rw [List.replicate_succ, defineAll, hdeclared]
    simp only [Rulebook.addResource_userResource]
    rfl
  obtain ⟨hfinal, houtcome⟩ := initResources_of_parse_ok (r := Rulebook.declared true) hparse
  rw [hall] at hfinal houtcome
  have hplaced : ((Rulebook.declared true).initResources twiceUserFeature).1.metadata?
      Rulebook.userResource = some Rulebook.metadata := by
    rw [hfinal]
    rfl
  obtain ⟨resource, -, hfails⟩ := hagain Rulebook.userResource rfl (by rw [hplaced]; rfl) []
  exact ⟨hr, houtcome, hplaced, hnames.trans rfl, resource, hfails⟩

end Registry

end AccessControl
