import AccessControl.Proofs.Application.Authority
import AccessControl.Proofs.CommandLine.Description
import AccessControl.Proofs.CommandLine.Trial

/-!
# The question that a command asks

A command that tries a decision out asks the registry of the application one question about one
principal.  Both may be made up, but the engine cannot tell: the context of the principal is that of
an account (`Principal.Describes.context_eq`), and a target differs from the user with its id and
its rank only in what no level reads (`Target.Describes.seesAlike`).

## The record of the question

The resource is a text, and so are the levels.  The action may be the empty list, if a separator was
taken for it.  It is no key, and looking it up in the rulebook of users is the only thing that can
go wrong (`Asks.record?_eq_none_iff`).  In all other cases there is a record: also with such an
action, if nothing is looked up because the account is not active, or because the resource has no
rulebook.  The record can be written, since all that it holds are texts, nothing, and the empty list
(`Asks.exists_text`).
-/

namespace AccessControl

open CommandLine

variable {p : Principal} {c u : Account} {t : Target} {logging : Bool} {resource action : Value}
  {g : Given} {q : Query} {f : Finding} {a : Audit}

/-! ## 1. Descriptions of stored users -/

/-- The principal has the attributes of the account. -/
structure Principal.Describes (p : Principal) (c : Account) : Prop where
  userId : p.userId = c.userId
  role : p.role = c.role
  rank : p.rank.getD p.role.rank = c.rank
  assigned : p.assigned = c.assigned
  inactive : p.inactive = true ↔ c.status ≠ .active

/-- The target has the id and the rank of the account. -/
structure Target.Describes (t : Target) (u : Account) : Prop where
  userId : t.userId = u.userId
  rank : t.rank.getD t.role.rank = u.rank

/-- An account with the attributes of the principal. -/
def Principal.account (p : Principal) : Account where
  userId := p.userId
  email := .text ""
  role := p.role
  rank := p.rank.getD p.role.rank
  status := if p.inactive then .suspended else .active
  displayName := .text ""
  assigned := p.assigned

theorem Principal.describes_account (p : Principal) : p.Describes p.account where
  userId := rfl
  role := rfl
  rank := rfl
  assigned := rfl
  inactive := by
    rw [Principal.account]
    cases p.inactive <;> simp

/-- The context of the principal is that of an account that it describes. -/
theorem Principal.Describes.context_eq (h : p.Describes c) : p.context = c.context := by
  have hactive : c.user.isActive = !p.inactive := by
    rw [Bool.eq_iff_iff, Account.isActive_user_iff, Bool.not_eq_true', ← Bool.not_eq_true,
      h.inactive, not_not]
  rw [Account.context, Principal.context, hactive, h.userId, h.rank, h.role, h.assigned]

/-- The context of a principal counts unless its account is not active. -/
theorem Principal.accepts_iff :
    (Rulebook.registry logging).Accepts .standard p.context ↔ p.inactive = false := by
  have h := p.describes_account
  rw [h.context_eq, Rulebook.accepts_context_iff, ← Bool.not_eq_true, h.inactive, not_not]

theorem Principal.contextRole?_context (p : Principal) :
    contextRole? p.context = some (.text p.role.name) := by
  rw [p.describes_account.context_eq, Rulebook.contextRole?_context]
  rfl

/-- No level of the rulebook reads more of a user than the id and the rank. -/
theorem Target.Describes.seesAlike (h : t.Describes u) (context : Value) :
    Rulebook.metadata.SeesAlike .standard context t.user.toValue u.user.toValue := by
  have hid : t.user.userId = u.user.userId := congrArg Value.text h.userId
  have hrank : t.user.rank = u.user.rank := congrArg Value.int h.rank
  refine ⟨hid, fun level l hl => ?_⟩
  obtain ⟨name, hmem, -⟩ := Value.mem_of_find? hl
  obtain ⟨known, -, heq⟩ := List.mem_map.mp hmem
  cases heq
  simp only [User.toValue, User.fields, hid, hrank]
  cases known <;> rfl

/-! ## 2. What is found -/

theorem Value.IsWord.name {v : Value} (h : v.IsWord) : v.name = v := by
  rcases h with ⟨s, rfl⟩ | rfl
  · rfl
  · rfl

theorem Value.IsWord.writes {v : Value} (h : v.IsWord) : Json.Writes v.flatten := by
  rcases h with ⟨s, rfl⟩ | rfl
  · exact Json.writes_text s
  · exact Json.writes_empty

namespace Inquiry

open Rulebook

/-- An action that is no text is asked for where it has to be looked up. -/
def Unanswerable (p : Principal) (resource action : Value) : Prop :=
  action = .list [] ∧ resource = .text userResource ∧ p.inactive = false

variable (logging)

/-- An action that is no text cannot be looked up in the rulebook of users. -/
theorem heldLevels_separator (role : Role) :
    (registry logging).heldLevels (.text role.name) (.text userResource) (.list []) =
      .error (.misuse (.unhashable "list")) := by
  cases role <;> rfl

/-- Any other look-up succeeds. -/
theorem heldLevels_word (role : Role) {s : String} (hblank : Text.blank s = false)
    (haction : action.IsWord) (hother : ¬ (action = .list [] ∧ s = userResource)) :
    ∃ found, (registry logging).heldLevels (.text role.name) (.text s) action = .ok found := by
  rcases haction with ⟨word, rfl⟩ | rfl
  · exact heldLevels_of_texts (Value.isText_text _) ⟨s, rfl, hblank⟩ (Value.isText_text word)
  · have hs : s ≠ userResource := fun h => hother ⟨rfl, h⟩
    refine ⟨[], ?_⟩
    rw [Registry.heldLevels, (registry logging).resourceDefinition_of_text? rfl hblank,
      metadata?_of_ne hs]
    rfl

variable {s command : String} (role : Role) (context : Value)
  (hasks : Asks g (.text s) action command q)

include hasks

/-- The question of a command is one whose denial is raised. -/
theorem Asks.raisesDenial : q.raisesDenial = true := by
  cases hasks with
  | check => rfl
  | can => rfl

theorem Asks.resource_eq : q.resource = .text s := by
  cases hasks with
  | check => rfl
  | can => rfl

/-- The command about a target asks about an instance. -/
theorem Asks.exists_target (hcan : command = "can") :
    ∃ t : Target, t.GivenBy g ∧ q = .instanceOf (.text s) action t.user.toValue := by
  cases hasks with
  | check => exact absurd hcan (by decide)
  | can t ht => exact ⟨t, ht, rfl⟩

/-- The question about an action that is no text, and would have to be looked up. -/
theorem Asks.find_separator (haction : action = .list []) (hs : s = userResource) :
    (q.find .standard (registry logging) context (.text role.name)).outcome =
      .error (.misuse (.unhashable "list")) := by
  subst haction hs
  cases hasks with
  | check levels =>
    exact lookUp_of_error (heldLevels_separator logging role)
  | can t =>
    rcases answerInstance_cases .standard (registry logging) context (.text role.name)
        (.text userResource) (.list []) t.user.toValue with
      ⟨e, he, hrun⟩ | ⟨id, message, hnone, -⟩ | ⟨m, found, hfound, -⟩
    · rw [heldLevels_separator] at he
      cases he
      exact congrArg Run.outcome hrun
    · rw [heldLevels_separator] at hnone
      cases hnone
    · rw [heldLevels_separator] at hfound
      cases hfound

/-- **Any other question is answered**, and what is found can be written. -/
theorem Asks.exists_find (hblank : Text.blank s = false) (haction : action.IsWord)
    (hother : ¬ (action = .list [] ∧ s = userResource)) :
    ∃ f, (q.find .standard (registry logging) context (.text role.name)).outcome = .ok f ∧
      f.answer = .granted ∧ ∀ field ∈ f.subject.fields, Json.Writes field.2.flatten := by
  obtain ⟨found, hheld⟩ := heldLevels_word logging role hblank haction hother
  have htexts := isText_of_heldLevels (listsTexts_registry logging) hheld
  cases hasks with
  | check levels =>
    have hlevels : ∀ l ∈ levels.map Value.text, l.IsText := by
      intro l hl
      obtain ⟨level, -, rfl⟩ := List.mem_map.mp hl
      exact Value.isText_text level
    obtain ⟨f, hf, hsubject, hanswer, -⟩ := answerPermission_of_held hheld htexts hlevels
    refine ⟨f, ?_, hanswer, ?_⟩
    · rw [← haction.name] at hf
      exact hf
    · rw [hsubject, Subject.fields, List.forall_mem_singleton]
      exact haction.writes
  | can t =>
    obtain ⟨f, hf, -, hanswer, -⟩ : ∃ f, (answerInstance .standard (registry logging) context
        (.text role.name) (.text s) action t.user.toValue).outcome = .ok f ∧ _ ∧
        f.answer = .granted ∧ _ := answerInstance_of_held hheld htexts
    obtain ⟨id, hsubject, hid⟩ := resourceId_of_answerInstance hf
    have hwrites : Json.Writes id.flatten := by
      rcases hid with ⟨rfl, -⟩ | ⟨m, hdef, rfl⟩
      · exact Json.writes_null
      · obtain ⟨name, hname⟩ := metadata?_of_resourceDefinition hdef
        rw [eq_metadata_of_metadata? hname]
        exact Json.writes_text t.userId
    refine ⟨f, ?_, hanswer, ?_⟩
    · rw [← haction.name] at hf
      exact hf
    · rw [hsubject, Subject.fields]
      intro field hfield
      rcases List.mem_cons.mp hfield with rfl | hfield
      · exact haction.writes
      · rw [List.mem_singleton.mp hfield]
        exact hwrites

/-- What is found answers the question, and can be written. -/
theorem Asks.of_find (hblank : Text.blank s = false) (haction : action.IsWord)
    (hf : (q.find .standard (registry logging) context (.text role.name)).outcome = .ok f) :
    f.answer = .granted ∧ ∀ field ∈ f.subject.fields, Json.Writes field.2.flatten := by
  have hother : ¬ (action = .list [] ∧ s = userResource) := by
    intro h
    rw [hasks.find_separator logging role context h.1 h.2] at hf
    cases hf
  obtain ⟨found, hfound, hanswer, hwrites⟩ :=
    hasks.exists_find logging role context hblank haction hother
  rw [hf] at hfound
  cases hfound
  exact ⟨hanswer, hwrites⟩

omit hasks

/-! ## 3. The record -/

/-- A record can be written if what it keeps of its question can be written. -/
theorem exists_indented_verdict {subject : Subject} {result : Verdict} {id message : String}
    (allowed : Bool) (h : ∀ field ∈ subject.fields, Json.Writes field.2.flatten) :
    ∃ text, Json.indented
      (verdict allowed (some ⟨subject, .text s, .text id, result, .text message⟩)) = .ok text := by
  have hfields : Json.Writes
      (.map (Audit.toMap ⟨subject, .text s, .text id, result, .text message⟩)) := by
    refine Json.writes_flattenFields ?_
    rw [Audit.fields, List.forall_mem_append]
    refine ⟨?_, h⟩
    simp only [List.forall_mem_cons, Value.flatten_text, Json.writes_text, true_and]
    simp
  refine Json.writes_map ?_ true 0
  simp only [List.forall_mem_cons, Option.map_some, Option.getD_some]
  exact ⟨⟨Value.isText_text _, Json.writes_bool allowed⟩, ⟨Value.isText_text _, hfields⟩, by simp⟩

include hasks

/-- There is a record unless an action that is no text has to be looked up. -/
theorem Asks.record?_eq_none_iff (hblank : Text.blank s = false) (haction : action.IsWord) :
    q.record? .standard (registry logging) p.context = none ↔
      Unanswerable p (.text s) action := by
  have hrole : (contextRole? p.context).getD .null = .text p.role.name := by
    rw [p.contextRole?_context, Option.getD_some]
  constructor
  · intro hnone
    rw [Query.record?] at hnone
    split at hnone
    · cases hnone
    · rename_i hscreen
      have hactive := Principal.accepts_iff.mp (screen_eq_none_iff.mp hscreen)
      by_contra hanswerable
      obtain ⟨f, hf, -⟩ := hasks.exists_find logging p.role p.context hblank haction
        fun h => hanswerable ⟨h.1, congrArg Value.text h.2, hactive⟩
      rw [hrole, hf] at hnone
      cases hnone
  · rintro ⟨hseparator, hs, hactive⟩
    have hfind := hasks.find_separator logging p.role p.context hseparator
      (Value.text.inj hs)
    have hscreen : (screen .standard (registry logging) p.context).2 = none :=
      screen_eq_none_iff.mpr (Principal.accepts_iff.mpr hactive)
    simp only [Query.record?, hscreen, hrole, hfind]

/-- The record can be written. -/
theorem Asks.exists_text (hblank : Text.blank s = false) (haction : action.IsWord)
    (ha : q.record? .standard (registry logging) p.context = some a) :
    ∃ text, Json.indented (verdict a.allowed (some a)) = .ok text := by
  rw [Query.record?, p.contextRole?_context, Option.getD_some] at ha
  split at ha
  · rename_i why _
    rw [← Option.some.inj ha, Rejection.audit, hasks.resource_eq]
    refine exists_indented_verdict _ ?_
    cases hasks with
    | check =>
      rw [Query.bareSubject, Subject.fields, List.forall_mem_singleton, haction.name]
      exact haction.writes
    | can =>
      rw [Query.bareSubject, Subject.fields, List.forall_mem_cons, List.forall_mem_singleton,
        haction.name]
      exact ⟨haction.writes, Json.writes_null⟩
  · split at ha
    · rename_i f hf
      rw [← Option.some.inj ha, Finding.audit, hasks.resource_eq]
      exact exists_indented_verdict _
        (hasks.of_find logging p.role p.context hblank haction hf).2
    · cases ha

/-- A record that allows is that of a decision that grants. -/
theorem Asks.granted_iff (hblank : Text.blank s = false) (haction : action.IsWord)
    (ha : q.record? .standard (registry logging) p.context = some a) :
    (q.decide .standard (registry logging) p.context).outcome = .ok .granted ↔
      a.allowed = true := by
  rcases decide_of_record? (sinkWorks_registry logging) hasks.raisesDenial ha with
    ⟨hallowed, -, answer, houtcome⟩ | ⟨hdenied, refusal, -, houtcome⟩
  · have hgranted : answer = .granted := by
      obtain ⟨f, hf, hanswer⟩ := exists_find_of_decide houtcome
      rw [p.contextRole?_context, Option.getD_some] at hf
      rw [← hanswer]
      exact (hasks.of_find logging p.role p.context hblank haction hf).1
    rw [houtcome, hgranted, hallowed]
    simp
  · rw [houtcome, hdenied]
    simp

omit hasks

/-! ## 4. Stored users -/

/-- **Stored users are decided about as described.** -/
theorem decide_described (hp : p.Describes c) (ht : t.Describes u)
    (hblank : Text.blank s = false) :
    (Query.instanceOf (.text s) action t.user.toValue).decide .standard (registry logging)
        p.context =
      (Query.instanceOf (.text s) action u.user.toValue).decide .standard (registry logging)
        c.context := by
  rw [hp.context_eq]
  have hdef : (registry logging).resourceDefinition (Value.text s).name =
      .ok ((registry logging).metadata? s) :=
    (registry logging).resourceDefinition_of_text? rfl hblank
  cases hm : (registry logging).metadata? s with
  | none =>
    rw [hm] at hdef
    exact decide_congr_undefined hdef
  | some m =>
    rw [hm, eq_metadata_of_metadata? hm] at hdef
    exact decide_congr_instance hdef (ht.seesAlike c.context)

end Inquiry

end AccessControl
