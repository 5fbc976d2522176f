import AccessControl.Interpretation
import AccessControl.Registry.Basic

/-!
# Decisions

Four questions can be asked about the principal of the current context.

* *Permission*: is the action granted to the role at all, and, if levels are named, through
  all of these?
* *Levels*: through which levels is the action granted?  Having none is an answer, not a denial.
* *Relationship*: does the role hold this relationship to the resource?
* *Instance*: does one of the levels through which the action is granted accept this instance?
  The levels are tried in the order of the grant; the first one that accepts decides, and one
  that fails decides too, against.

Every question is answered in the same way.

1. The context is screened: there must be one, it must have a role, and it must pass every
   global check, in the order of registration.  Otherwise the request is not authenticated, and
   nothing else is looked at.
2. The question is answered from the registry.
3. One record is made; if decisions are recorded, it goes to the sink.
4. A denial is raised as an error.
-/

namespace AccessControl

/-- A question about the principal of the current context. -/
inductive Query
  /-- Is the action granted, through all of the levels? -/
  | permission (resource action : Value) (levels : List Value)
  /-- Through which levels is the action granted? -/
  | levels (resource action : Value)
  /-- Is the relationship held? -/
  | relationship (resource relationship : Value)
  /-- May the action be applied to the instance? -/
  | instanceOf (resource action : Value) (inst : Value)

/-- What a question is answered with when it is not denied. -/
inductive Answer
  | granted
  | levels (found : Option (List Value))

/-- Why a context does not count. -/
inductive Rejection
  /-- No context is bound. -/
  | unbound
  /-- The context has no role. -/
  | noRole
  /-- A global check does not accept the context. -/
  | failed (check : GlobalCheck)
  /-- A global check fails with an error of this kind. -/
  | errored (check : GlobalCheck) (kind : String)

namespace Rejection

/-- The rejection in words. -/
def message : Rejection → String
  | unbound => "No context bound to the current request"
  | noRole => "No role defined in context"
  | failed c => "Global check failed: " ++ c.name.plain ++ " - " ++ c.message.plain
  | errored c kind => "Global check errored: " ++ c.name.plain ++ " - " ++ kind

end Rejection

/-! ## 1. Screening the context -/

/-- The line of the log for a predicate that failed. -/
def predicateLine (message : String) (e : Fault) : LogRecord where
  logger := "gatekeeper.authz.service"
  level := .error
  message := message
  fault := some e.kind

/-- Asks the checks in order, up to the first that does not accept the context. -/
def runChecks (i : Interpretation) (context : Value) :
    List GlobalCheck → List Event × Option Rejection
  | [] => ([], none)
  | c :: rest =>
    match i.evaluate c.fn [context] with
    | .error e =>
      ([.called c.fn,
        .logged (predicateLine
          ("Global check " ++ c.name.plain ++ " raised during evaluation") e)],
        some (.errored c e.kind))
    | .ok v =>
      if v.truthy then
        let after := runChecks i context rest
        (.called c.fn :: after.1, after.2)
      else ([.called c.fn], some (.failed c))

/-- The role that a context carries, if it counts as one. -/
def contextRole? (context : Value) : Option Value :=
  match context.field? "role" with
  | some role => if role.truthy then some role.name else none
  | none => none

/-- The id of the principal, as records give it. -/
def contextUserId (context : Value) : String :=
  match context.field? "user_id" with
  | some id => if id.truthy then id.plain else "unknown"
  | none => "unknown"

/-- Why the context does not count, if it does not, and what happened on the way. -/
def screen (i : Interpretation) (r : Registry) (context : Value) :
    List Event × Option Rejection :=
  if context.isNull then ([], some .unbound)
  else if (contextRole? context).isNone then ([], some .noRole)
  else runChecks i context r.checks

/-! ## 2. Answering from the registry -/

namespace Query

/-- The resource that is asked about, by its plain name. -/
def resource : Query → Value
  | permission resource _ _ => resource.name
  | levels resource _ => resource.name
  | relationship resource _ => resource.name
  | instanceOf resource _ _ => resource.name

/-- What the record of the question keeps when the context does not count. -/
def bareSubject : Query → Subject
  | permission _ action _ => .permission action.name
  | levels _ action => .levels action.name none
  | relationship _ r => .relationship r.name
  | instanceOf _ action _ => .instanceOf action.name .null

end Query

/-- An answer, with the words that go into its record. -/
structure Finding where
  subject : Subject
  verdict : Verdict
  message : String
  answer : Answer

namespace Finding

/-- A denial. -/
def deny (subject : Subject) (message : String) : Finding :=
  ⟨subject, .deny, message, .granted⟩

/-- An allowance. -/
def allow (subject : Subject) (message : String) : Finding :=
  ⟨subject, .allow, message, .granted⟩

/-- Nothing was found to be granted; for a query of levels this is the answer. -/
def nothing (subject : Subject) (message : String) : Finding :=
  ⟨subject, .deny, message, .levels none⟩

/-- The record of the finding. -/
def audit (f : Finding) (resource context : Value) : Audit where
  subject := f.subject
  resource := resource
  userId := .text (contextUserId context)
  result := f.verdict
  message := .text f.message

end Finding

/-- Texts with a comma and a blank between them; an element that is no text cannot be joined. -/
def joinTexts (place : Nat) : List Value → Except Misuse (List String)
  | [] => .ok []
  | v :: rest =>
    match v.text? with
    | some s => (joinTexts (place + 1) rest).map (s :: ·)
    | none => .error (.notJoinable place v.operandName)

/-- The names of a list in one text. -/
def joined (names : List Value) : Except Fault String :=
  match joinTexts 0 names with
  | .ok parts => .ok (Value.commaSeparated parts)
  | .error m => .error (.misuse m)

/-- The names that are none of the known ones. -/
def unknownNames (known : List Value) : List Value → Except Fault (List Value)
  | [] => .ok []
  | v :: rest => do
    v.requireKey Fault.misuse
    let later ← unknownNames known rest
    return if known.any (Value.same · v) then later else v :: later

/-- The grant of a role on a resource. -/
def grantFor? (m : Metadata) (role : Value) : Except Fault (Option Grant) := do
  role.requireKey Fault.misuse
  return role.text?.bind fun s => m.grants.lookup s

/-- The levels through which an action is granted; none if it is not. -/
def levelsFor (g : Grant) (action : Value) : Except Fault (List Value) := do
  action.requireKey Fault.misuse
  return (Value.find? action g.permissions).getD []

/-- The words for a resource that has no rulebook. -/
def noResource (resource : Value) : String :=
  "Resource '" ++ resource.plain ++ "' not found"

/-- The words for a role that a rulebook does not name. -/
def noGrant (role resource : Value) : String :=
  "Role '" ++ role.plain ++ "' has no permissions defined for resource '" ++ resource.plain ++ "'"

/-- Answers a permission query once the levels of the action are known. -/
def answerFilter (m : Metadata) (action role : Value) (granted requested : List Value) :
    Except Fault Finding := do
  let subject := Subject.permission action
  if granted.isEmpty then
    return .deny subject
      ("Permission '" ++ action.plain ++ "' not granted for role '" ++ role.plain ++ "'")
  if requested.isEmpty then
    let found ← joined granted
    return .allow subject
      ("Permission '" ++ action.plain ++ "' granted with access levels: [" ++ found ++ "]")
  let unknown ← unknownNames (m.levels.map Prod.fst) requested
  if !unknown.isEmpty then
    let names ← joined unknown
    return .deny subject ("Invalid access levels requested: [" ++ names ++ "]")
  if requested.all fun v => granted.any (Value.same · v) then
    let names ← joined requested
    return .allow subject
      ("Requested access levels [" ++ names ++ "] are granted for action '" ++ action.plain ++ "'")
  let names ← joined requested
  let found ← joined granted
  return .deny subject
    ("Not all requested access levels [" ++ names ++ "] are granted. Available: [" ++ found ++ "]")

/-- Answers a permission query. -/
def answerPermission (r : Registry) (role resource action : Value) (requested : List Value) :
    Except Fault Finding := do
  match ← r.resourceDefinition resource with
  | none => return .deny (.permission action) (noResource resource)
  | some m =>
    match ← grantFor? m role with
    | none => return .deny (.permission action) (noGrant role resource)
    | some g => answerFilter m action role (← levelsFor g action) requested

/-- Answers a query of levels. -/
def answerLevels (r : Registry) (role resource action : Value) : Except Fault Finding := do
  let subject := Subject.levels action none
  match ← r.resourceDefinition resource with
  | none => return .nothing subject (noResource resource)
  | some m =>
    match ← grantFor? m role with
    | none => return .nothing subject (noGrant role resource)
    | some g =>
      let granted ← levelsFor g action
      if granted.isEmpty then
        return .nothing subject ("No access levels found for action '" ++ action.plain ++ "'")
      let names ← joined granted
      return ⟨.levels action (some granted), .allow, "Access levels found: " ++ names,
        .levels (some granted)⟩

/-- Answers a relationship query. -/
def answerRelationship (r : Registry) (role resource relationship : Value) :
    Except Fault Finding := do
  let subject := Subject.relationship relationship
  match ← r.resourceDefinition resource with
  | none => return .deny subject (noResource resource)
  | some m =>
    match ← grantFor? m role with
    | none => return .deny subject (noGrant role resource)
    | some g =>
      relationship.requireElement Fault.misuse
      let words := "Relationship '" ++ relationship.plain ++ "' is "
      if g.relationships.any (Value.same · relationship) then
        return .allow subject (words ++ "allowed for role '" ++ role.plain ++ "'")
      return .deny subject (words ++ "not allowed for role '" ++ role.plain ++ "'")

/-- The id of an instance: its value under the identifier, or its field of that name. -/
def readIdentifier (inst : Value) (identifier : String) : Value :=
  match inst.entries? with
  | some es => (Value.find? (.text identifier) es).getD .null
  | none => (inst.field? identifier).getD .null

/-- How the levels of an action decide about an instance. -/
inductive LevelOutcome
  /-- This level accepted it. -/
  | accepted (level : Value)
  /-- This level failed with an error of this kind. -/
  | errored (level : Value) (kind : String)
  /-- No level accepted it. -/
  | none

/-- Tries the levels in order, up to the first that decides. -/
def tryLevels (i : Interpretation) (m : Metadata) (resource context inst : Value) :
    List Value → List Event × LevelOutcome
  | [] => ([], .none)
  | level :: rest =>
    match Value.find? level m.levels with
    | none => tryLevels i m resource context inst rest
    | some l =>
      match i.evaluate l.fn [context, inst] with
      | .error e =>
        ([.called l.fn,
          .logged (predicateLine
            ("Access level " ++ level.plain ++ " on " ++ resource.plain
              ++ " raised during evaluation") e)],
          .errored level e.kind)
      | .ok v =>
        if v.truthy then ([.called l.fn], .accepted level)
        else
          let after := tryLevels i m resource context inst rest
          (.called l.fn :: after.1, after.2)

/-- What an instance query finds once the levels have been tried. -/
def concludeInstance (subject : Subject) (granted : List Value) :
    LevelOutcome → Except Fault Finding
  | .accepted level =>
    .ok (.allow subject ("Access granted through access level '" ++ level.plain ++ "'"))
  | .errored level kind =>
    .ok (.deny subject ("Access level '" ++ level.plain ++ "' raised " ++ kind))
  | .none => do
    let names ← joined granted
    return .deny subject ("None of the access levels [" ++ names ++ "] granted permission")

/-- Answers an instance query. -/
def answerInstance (i : Interpretation) (r : Registry) (context role resource action inst : Value) :
    Run Finding :=
  match r.resourceDefinition resource with
  | .error e => Run.fail e
  | .ok none => Run.pure (.deny (.instanceOf action .null) (noResource resource))
  | .ok (some m) =>
    let subject := Subject.instanceOf action (readIdentifier inst m.identifier)
    match grantFor? m role with
    | .error e => Run.fail e
    | .ok none => Run.pure (.deny subject (noGrant role resource))
    | .ok (some g) =>
      match levelsFor g action with
      | .error e => Run.fail e
      | .ok [] =>
        Run.pure (.deny subject ("No access levels defined for action '" ++ action.plain
          ++ "' on resource '" ++ resource.plain ++ "'"))
      | .ok granted =>
        let tried := tryLevels i m resource context inst granted
        ⟨tried.1, concludeInstance subject granted tried.2⟩

/-- Answers a question from the registry, for a role. -/
def Query.find (i : Interpretation) (r : Registry) (context role : Value) : Query → Run Finding
  | permission resource action requested =>
    Run.ofExcept (answerPermission r role resource.name action.name requested)
  | levels resource action => Run.ofExcept (answerLevels r role resource.name action.name)
  | relationship resource held =>
    Run.ofExcept (answerRelationship r role resource.name held.name)
  | instanceOf resource action inst =>
    answerInstance i r context role resource.name action.name inst

/-! ## 3. The pipeline -/

/-- Gives a record to the sink, if decisions are recorded. -/
def deliver (i : Interpretation) (r : Registry) (a : Audit) : Run Unit :=
  if r.logging then
    let d := i.deliver r.sink a
    ⟨.called r.sink :: d.events, d.outcome⟩
  else Run.pure ()

/-- Raises the error that a refusal makes from a record. -/
def refuse (i : Interpretation) (refusal : Callable) (a : Audit) : Run α :=
  ⟨[.called refusal], .error (i.refuse refusal a)⟩

/-- The record of a question that was asked without a valid context. -/
def Rejection.audit (why : Rejection) (subject : Subject) (resource : Value) (context : Value) :
    Audit where
  subject := subject
  resource := resource
  userId := .text (contextUserId context)
  result := .deny
  message := .text why.message

/-- Whether a denial of this question is an error. -/
def Query.raisesDenial : Query → Bool
  | levels _ _ => false
  | _ => true

/-- Records a finding, and gives its answer or raises its denial. -/
def Finding.conclude (i : Interpretation) (r : Registry) (context : Value) (q : Query)
    (f : Finding) : Run Answer :=
  let a := f.audit q.resource context
  (deliver i r a).bind fun _ =>
    if q.raisesDenial && !a.allowed then refuse i r.authzRefusal a else Run.pure f.answer

/-- Answers a question about the principal of a context. -/
def Query.decide (i : Interpretation) (r : Registry) (context : Value) (q : Query) : Run Answer :=
  match screen i r context with
  | (events, some why) =>
    let a := why.audit q.bareSubject q.resource context
    Run.bind ⟨events, .ok ()⟩ fun _ =>
      (deliver i r a).bind fun _ => refuse i r.authnRefusal a
  | (events, none) =>
    Run.bind ⟨events, .ok ()⟩ fun _ =>
      (q.find i r context ((contextRole? context).getD .null)).bind (Finding.conclude i r context q)

/-- The levels that a permission query names: nothing, or the names of a collection. -/
def requestedLevels (v : Value) : Except Fault (List Value) :=
  if !v.truthy then .ok []
  else match v.items? with
    | some items => .ok (items.map Value.name)
    | none => .error (.misuse (.notIterable v.operandName))

/-- Asks whether an action is granted, through all of some levels. -/
def hasPermission (i : Interpretation) (r : Registry) (context resource action filter : Value) :
    Run Answer :=
  match requestedLevels filter with
  | .error e => Run.fail e
  | .ok requested => (Query.permission resource action requested).decide i r context

/-- Turns a request away before any question was asked. -/
def turnAway (i : Interpretation) (r : Registry) (message resource userId : Value) : Run α :=
  let a : Audit := ⟨.request, resource, userId, .deny, message⟩
  (deliver i r a).bind fun _ => refuse i r.authnRefusal a

/-- The context, if it counts; otherwise the request is turned away. -/
def authenticate (i : Interpretation) (r : Registry) (context : Value) : Run Value :=
  match screen i r context with
  | (events, none) => ⟨events, .ok context⟩
  | (events, some why) =>
    Run.bind ⟨events, .ok ()⟩ fun _ =>
      turnAway i r (.text why.message) (.text "authentication") (.text (contextUserId context))

end AccessControl
