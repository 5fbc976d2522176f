import AccessControl.Proofs.Registry.References
import AccessControl.Proofs.Registry.FeatureOrder

/-!
# Changing a registry where it stands

`Registry.addRole` and its like hand out a new registry, or an error and no registry.  So there is
nothing that a failed change could have left behind, and that a registry is the same after a
failure says little about them.  A registry that is shared has no such luxury.  It is written field
by field, in some order, and what has been written when a step fails stays written.

This module has the changes in that form.  A `Procedure` reads and writes the one registry there
is, and an error does not take any write back.  The steps come in the order in which they have to
be taken: in particular a resource is filed under its roles, one by one, before its rulebook is in
place, and whether a role is registered is looked up when the role is reached.

`Command.perform_eq` says that both forms of every command do the same.  So every check comes before
the first write, which is what `failures_leave_no_trace` says of all commands except the one that
has several resources to define; this one keeps what it has done (`initResources_commits_prefix`).

## Where the past of a registry matters

A role that is new gets an empty entry in the index, whatever there was in its place.  If there
could be an entry for a role that is not registered, this would be a write over it and not at the
end.  In a registry that can be come by there is none (`Reachable.keys_index`).
-/

namespace AccessControl

namespace Registry

/-- A procedure on the one registry there is.  An error leaves the registry as it is at that
moment, not as it was at the start. -/
abbrev Procedure (α : Type) : Type := EStateM Fault Registry α

namespace Procedure

/-- A step that computes something, or fails, without a look at the registry. -/
def check {α : Type} : Except Fault α → Procedure α
  | .ok a => pure a
  | .error e => throw e

/-- A step of the validation of a resource. -/
def checkDefinition {α : Type} (resource : String) (x : Except Defect α) : Procedure α :=
  check (x.mapError (Defect.toFault resource))

/-! ## 1. The procedures

Each procedure has the name of the change that it carries out in place.
-/

def setLogging (enabled : Value) : Procedure Unit := do
  match enabled with
  | .bool b => modify fun r => { r with logging := b }
  | _ => throw (.config .loggingFlag)

def setSink (sink : Value) : Procedure Unit := do
  let f ← check (requireFunction "Logger" sink)
  modify fun r => { r with sink := f }

def setAuthnRefusal (refusal : Value) : Procedure Unit := do
  let f ← check (requireFunction "Authentication exception function" refusal)
  modify fun r => { r with authnRefusal := f }

def setAuthzRefusal (refusal : Value) : Procedure Unit := do
  let f ← check (requireFunction "Authorization exception function" refusal)
  modify fun r => { r with authzRefusal := f }

/-- Looks at the checks one by one. -/
def readChecks : List Value → Procedure (List GlobalCheck)
  | [] => return []
  | v :: rest => do
    let first ← check (readCheck v)
    let others ← readChecks rest
    return first :: others

def setChecks (checks : Value) : Procedure Unit := do
  match listElements? checks with
  | none => throw (.config .checksNotList)
  | some items =>
    let read ← readChecks items
    modify fun r => { r with checks := read }

def addRole (role definition : Value) : Procedure Unit := do
  let name ← check (requireRole role)
  if definition.isNull then throw (.config .noRoleDefinition)
  if (← get).hasRole name then return
  modify fun r => { r with roles := assign name definition r.roles }
  modify fun r => { r with index := assign name [] r.index }

def setDefaultRole (role : Value) (force : Bool) : Procedure Unit := do
  let name ← check (requireRole role)
  if !(← get).hasRole name then throw (.unknownRole (.text name))
  if (← get).defaultRole.isNone || force then
    modify fun r => { r with defaultRole := some name }

/-- Reads the grants role by role; a role has to be registered when its turn comes. -/
def readGrants (resource : String) (actions levels relationships : List Value)
    (acc : List (String × Grant)) : List (Value × Value) → Procedure (List (String × Grant))
  | [] => return acc
  | (key, entry) :: rest => do
    checkDefinition resource (key.name.requireKey Defect.misuse)
    match key.name.text? with
    | none => throw (.unknownRole key.name)
    | some role =>
      if (← get).hasRole role then
        let grant ← checkDefinition resource
          (Definition.readGrant actions levels relationships entry)
        readGrants resource actions levels relationships (assign role grant acc) rest
      else throw (.unknownRole key.name)

/-- Files a resource under its roles, one by one. -/
def fileUnder (resource : String) : List String → Procedure Unit
  | [] => return
  | role :: rest => do
    modify fun r => { r with index := indexRole resource role r.index }
    fileUnder resource rest

/-- Validates a definition and files the resource under its roles. -/
def validate (resource : String) (d : Definition) : Procedure Metadata := do
  let identifier ← checkDefinition resource (d.identifierOf.mapError .flaw)
  let actions ← checkDefinition resource ((Definition.nameSet d.actions).mapError .misuse)
  let relationships ← checkDefinition resource
    ((Definition.nameSet d.relationships).mapError .misuse)
  let levels ← checkDefinition resource (Definition.levelsOf d.levels)
  let entries ← checkDefinition resource (d.roles.requireEntries.mapError .misuse)
  let grants ← readGrants resource actions (levels.map Prod.fst) relationships [] entries
  fileUnder resource (grants.map Prod.fst)
  return ⟨identifier, actions, levels, relationships, grants⟩

def addResource (resource definition : Value) : Procedure Unit := do
  let name ← check (requireResource resource)
  if definition.isNull then
    if (← get).hasResource name then throw (.definition name .redeclared)
    modify fun r => { r with resources := assign name none r.resources }
  else
    if ((← get).metadata? name).isSome then throw (.definition name .redefined)
    match Definition.ofValue? definition with
    | none => throw (.definition name .notDefinition)
    | some d =>
      let m ← validate name d
      modify fun r => { r with resources := assign name (some m) r.resources }

/-- Adds the resources of a feature, each of which has to be declared. -/
def defineAll : List FeatureEntry → Procedure Unit
  | [] => return
  | e :: rest => do
    if !(← get).hasResource e.name then throw (.unknownResource e.name)
    addResource (.text e.name) e.definition.toValue
    defineAll rest

def initResources (options : Value) : Procedure Unit := do
  let read ← check (FeatureOptions.parse options)
  defineAll read.resources

end Procedure

/-- The procedure of a command. -/
def Command.perform : Command → Procedure Unit
  | addRole role definition => Procedure.addRole role definition
  | setDefaultRole role force => Procedure.setDefaultRole role force
  | addResource resource definition => Procedure.addResource resource definition
  | initResources options => Procedure.initResources options
  | setChecks checks => Procedure.setChecks checks
  | setLogging enabled => Procedure.setLogging enabled
  | setSink sink => Procedure.setSink sink
  | setAuthnRefusal refusal => Procedure.setAuthnRefusal refusal
  | setAuthzRefusal refusal => Procedure.setAuthzRefusal refusal

/-- Several commands on the one registry, one after the other, whether or not they fail: the
registry at the end, and what came of each of them. -/
def Command.performAll (r : Registry) : List Command → Registry × List (Except Fault Unit)
  | [] => (r, [])
  | c :: rest =>
    match c.perform r with
    | .ok () s => ((performAll s rest).1, .ok () :: (performAll s rest).2)
    | .error fault s => ((performAll s rest).1, .error fault :: (performAll s rest).2)

namespace Procedure

variable {α β : Type} {r s : Registry} {fault : Fault}

/-- What a procedure comes to that writes nothing before it is sure to succeed: the registry that
it is meant to make, or the error and the registry of the start. -/
def settled (r : Registry) : Except Fault Registry → EStateM.Result Fault Registry Unit
  | .ok s => .ok () s
  | .error e => .error e r

/-! ## 2. One step -/

/-- A step that only computes hands its result on, with the registry as it was, or ends there. -/
theorem check_bind (x : Except Fault α) (f : α → Procedure β) (r : Registry) :
    (check x >>= f) r = match x with
      | .ok a => f a r
      | .error e => .error e r := by
  cases x with
  | ok a => rfl
  | error e => rfl

theorem checkDefinition_bind (resource : String) (x : Except Defect α) (f : α → Procedure β)
    (r : Registry) :
    (checkDefinition resource x >>= f) r = match x with
      | .ok a => f a r
      | .error defect => .error (defect.toFault resource) r := by
  cases x with
  | ok a => rfl
  | error defect => rfl

theorem checkDefinition_of_bind (resource : String) (x : Except Defect α)
    (f : α → Except Defect β) :
    checkDefinition resource (x >>= f) =
      (checkDefinition resource x >>= fun a => checkDefinition resource (f a)) := by
  cases x with
  | ok a => rfl
  | error defect => rfl

/-- After a step that only computes, what follows starts from the registry of the step. -/
theorem checkDefinition_bind_congr {resource : String} (x : Except Defect α)
    {f g : α → Procedure β} (h : ∀ a, f a r = g a r) :
    (checkDefinition resource x >>= f) r = (checkDefinition resource x >>= g) r := by
  rw [checkDefinition_bind, checkDefinition_bind]
  cases x with
  | ok a => exact h a
  | error defect => rfl

/-- What a procedure comes to is all that the next one sees of it. -/
theorem bind_congr {p q : Procedure α} (h : p r = q r) (f : α → Procedure β) :
    (p >>= f) r = (q >>= f) r := by
  change EStateM.bind p f r = EStateM.bind q f r
  rw [EStateM.bind, EStateM.bind, h]

theorem get_bind (f : Registry → Procedure β) (r : Registry) : (get >>= f) r = f r r := rfl

theorem modify_bind (g : Registry → Registry) (f : Unit → Procedure β) (r : Registry) :
    (modify g >>= f) r = f () (g r) := rfl

/-! ## 3. Hooks, checks and roles -/

/-- A hook is set if it can be called. -/
theorem setHook_eq (what : String) (v : Value) (set : Callable → Registry → Registry)
    (r : Registry) :
    (do
      let f ← check (requireFunction what v)
      modify fun r => set f r : Procedure Unit) r =
        settled r (do
          let f ← requireFunction what v
          return set f r) := by
  rw [check_bind]
  cases requireFunction what v with
  | ok f => rfl
  | error e => rfl

theorem setLogging_eq (enabled : Value) (r : Registry) :
    setLogging enabled r = settled r (r.setLogging enabled) := by
  cases enabled <;> rfl

theorem readChecks_eq (items : List Value) (r : Registry) :
    readChecks items r = check (items.mapM readCheck) r := by
  induction items with
  | nil => rfl
  | cons v rest ih =>
    rw [readChecks, check_bind, List.mapM_cons]
    cases readCheck v with
    | error e => rfl
    | ok first =>
      rw [ok_bind]
      refine (bind_congr ih _).trans ?_
      rw [check_bind]
      cases rest.mapM readCheck with
      | error e => rfl
      | ok others => rfl

theorem setChecks_eq (checks : Value) (r : Registry) :
    setChecks checks r = settled r (r.setChecks checks) := by
  rw [setChecks, Registry.setChecks]
  cases listElements? checks with
  | none => rfl
  | some items =>
    refine (bind_congr (readChecks_eq items r) _).trans ?_
    rw [check_bind]
    dsimp only
    cases items.mapM readCheck with
    | error e => rfl
    | ok read => rfl

/-- A new role comes last, in the index too. -/
theorem addRole_eq (hindex : r.index.map Prod.fst = r.roleNames) (role definition : Value) :
    addRole role definition r = settled r (r.addRole role definition) := by
  rw [addRole, check_bind, Registry.addRole]
  cases requireRole role with
  | error e => rfl
  | ok name =>
    rw [ok_bind]
    by_cases hnull : definition.isNull = true
    · simp only [if_pos hnull]
      rfl
    · simp only [if_neg hnull]
      by_cases hknown : r.hasRole name = true
      · simp only [get_bind, if_pos hknown]
        rfl
      · have hrole : name ∉ r.roles.map Prod.fst := fun h => hknown (isSome_lookup_iff.mpr h)
        have hentry : name ∉ r.index.map Prod.fst := by
          rw [hindex]
          exact hrole
        simp only [get_bind, if_neg hknown, modify_bind]
        change EStateM.Result.ok () { r with
            roles := assign name definition r.roles
            index := assign name [] r.index } = _
        rw [assign_of_notMem definition hrole, assign_of_notMem [] hentry]
        rfl

theorem setDefaultRole_eq (role : Value) (force : Bool) (r : Registry) :
    setDefaultRole role force r = settled r (r.setDefaultRole role force) := by
  rw [setDefaultRole, check_bind, Registry.setDefaultRole]
  cases requireRole role with
  | error e => rfl
  | ok name =>
    rw [ok_bind]
    dsimp only
    rw [get_bind]
    by_cases hknown : r.hasRole name = true
    · simp only [hknown, Bool.not_true, Bool.false_eq_true, if_false, get_bind]
      split
      · rfl
      · rfl
    · simp only [hknown, Bool.not_false, if_true]
      rfl

/-! ## 4. Resources -/

/-- The grants are read without a write: at every role the registry is still the one of the
start, so the roles that are registered are the same throughout. -/
theorem readGrants_eq (resource : String) (actions levels relationships : List Value)
    (acc : List (String × Grant)) (entries : List (Value × Value)) (r : Registry) :
    readGrants resource actions levels relationships acc entries r =
      checkDefinition resource
        (Definition.readGrants r.hasRole actions levels relationships acc entries) r := by
  induction entries generalizing acc with
  | nil => rfl
  | cons first rest ih =>
    obtain ⟨key, entry⟩ := first
    rw [readGrants, checkDefinition_bind, Definition.readGrants]
    cases key.name.requireKey Defect.misuse with
    | error defect => rfl
    | ok u =>
      rw [ok_bind]
      dsimp only
      cases key.name.text? with
      | none => rfl
      | some role =>
        dsimp only
        rw [get_bind]
        by_cases hrole : r.hasRole role = true
        · rw [if_pos hrole, if_pos hrole, checkDefinition_bind]
          cases Definition.readGrant actions levels relationships entry with
          | error defect => rfl
          | ok grant => exact ih (assign role grant acc)
        · rw [if_neg hrole, if_neg hrole]
          rfl

theorem fileUnder_eq (resource : String) (roles : List String) (r : Registry) :
    fileUnder resource roles r =
      .ok () { r with index := indexResource resource roles r.index } := by
  induction roles generalizing r with
  | nil => rfl
  | cons role rest ih =>
    rw [fileUnder, modify_bind, ih]
    rfl

/-- A resource is filed under its roles only when nothing is left that could be wrong with its
definition: the whole validation is one step that only computes, and the writes come after it. -/
theorem validate_eq (resource : String) (d : Definition) (r : Registry) :
    validate resource d r = match d.validate r.hasRole with
      | .ok m => .ok m { r with
          index := indexResource resource (m.grants.map Prod.fst) r.index }
      | .error defect => .error (defect.toFault resource) r := by
  have hfile : ∀ m : Metadata, (do
      fileUnder resource (m.grants.map Prod.fst)
      return m : Procedure Metadata) r =
        .ok m { r with index := indexResource resource (m.grants.map Prod.fst) r.index } := by
    intro m
    change EStateM.bind (fileUnder resource (m.grants.map Prod.fst)) (fun _ => pure m) r = _
    rw [EStateM.bind, fileUnder_eq]
    rfl
  have hchain : validate resource d r = (checkDefinition resource (d.validate r.hasRole) >>=
      fun m => do
        fileUnder resource (m.grants.map Prod.fst)
        return m) r := by
    rw [validate, Definition.validate]
    simp only [checkDefinition_of_bind, bind_assoc]
    refine checkDefinition_bind_congr _ fun identifier => ?_
    refine checkDefinition_bind_congr _ fun actions => ?_
    refine checkDefinition_bind_congr _ fun relationships => ?_
    refine checkDefinition_bind_congr _ fun levels => ?_
    refine checkDefinition_bind_congr _ fun entries => ?_
    exact bind_congr (readGrants_eq _ _ _ _ _ _ r) _
  rw [hchain, checkDefinition_bind]
  cases d.validate r.hasRole with
  | error defect => rfl
  | ok m => exact hfile m

theorem addResource_eq (resource definition : Value) (r : Registry) :
    addResource resource definition r = settled r (r.addResource resource definition) := by
  rw [addResource, check_bind, Registry.addResource]
  cases requireResource resource with
  | error e => rfl
  | ok name =>
    rw [ok_bind]
    dsimp only
    by_cases hnull : definition.isNull = true
    · rw [if_pos hnull, if_pos hnull, get_bind, declare]
      by_cases hknown : r.hasResource name = true
      · rw [if_pos hknown, if_pos hknown]
        rfl
      · rw [if_neg hknown, if_neg hknown]
        rfl
    · rw [if_neg hnull, if_neg hnull, get_bind, define]
      by_cases hdefined : (r.metadata? name).isSome = true
      · rw [if_pos hdefined, if_pos hdefined]
        rfl
      · rw [if_neg hdefined, if_neg hdefined]
        cases Definition.ofValue? definition with
        | none => rfl
        | some d =>
          dsimp only
          change EStateM.bind (validate name d) _ r = _
          rw [EStateM.bind, validate_eq]
          cases d.validate r.hasRole with
          | error defect => rfl
          | ok m =>
            rfl

/-- What a procedure comes to that has to agree with a command: the registry is the same, and so
is what comes of it. -/
def agreed (x : Registry × Run Unit) : EStateM.Result Fault Registry Unit :=
  match x.2.outcome with
  | .ok () => .ok () x.1
  | .error e => .error e x.1

theorem agreed_attempt (r : Registry) (events : List Event) (change : Except Fault Registry) :
    agreed (Command.attempt r events change) = settled r change := by
  cases change with
  | ok s => rfl
  | error e => rfl

/-- The resources of a feature are added one by one, and those that have been added stay. -/
theorem defineAll_eq (entries : List FeatureEntry) (r : Registry) :
    defineAll entries r = agreed (r.defineAll entries) := by
  induction entries generalizing r with
  | nil => rfl
  | cons e rest ih =>
    rw [defineAll, get_bind, Registry.defineAll]
    cases hdeclared : r.hasResource e.name with
    | false => rfl
    | true =>
      simp only [Bool.not_true, Bool.false_eq_true, if_false]
      change EStateM.bind (addResource (.text e.name) e.definition.toValue) _ r = _
      rw [EStateM.bind, addResource_eq]
      cases r.addResource (.text e.name) e.definition.toValue with
      | error fault => rfl
      | ok next => exact ih next

theorem initResources_eq (options : Value) (r : Registry) :
    initResources options r = agreed (r.initResources options) := by
  rw [initResources, check_bind, Registry.initResources]
  cases FeatureOptions.parse options with
  | error fault => rfl
  | ok read =>
    dsimp only
    rw [defineAll_eq, agreed]
    cases houtcome : (r.defineAll read.resources).2.outcome with
    | ok u =>
      dsimp only
      rw [agreed, houtcome]
    | error fault => rfl

end Procedure

/-! ## 5. Every command -/

variable {r s : Registry} {fault : Fault}

/-- **Both forms of a command do the same**: the one that hands out a new registry, and the one
that writes the registry where it stands. -/
theorem Command.perform_eq (hr : r.Reachable) (c : Command) :
    c.perform r = Procedure.agreed (c.apply r) := by
  cases c with
  | addRole role definition =>
    exact (Procedure.addRole_eq hr.keys_index role definition).trans
      (Procedure.agreed_attempt r _ _).symm
  | setDefaultRole role force =>
    exact (Procedure.setDefaultRole_eq role force r).trans (Procedure.agreed_attempt r _ _).symm
  | addResource resource definition =>
    exact (Procedure.addResource_eq resource definition r).trans
      (Procedure.agreed_attempt r _ _).symm
  | initResources options => exact Procedure.initResources_eq options r
  | setChecks checks =>
    exact (Procedure.setChecks_eq checks r).trans (Procedure.agreed_attempt r _ _).symm
  | setLogging enabled =>
    exact (Procedure.setLogging_eq enabled r).trans (Procedure.agreed_attempt r _ _).symm
  | setSink sink =>
    exact (Procedure.setHook_eq _ sink (fun f r => { r with sink := f }) r).trans
      (Procedure.agreed_attempt r _ _).symm
  | setAuthnRefusal refusal =>
    exact (Procedure.setHook_eq _ refusal (fun f r => { r with authnRefusal := f }) r).trans
      (Procedure.agreed_attempt r _ _).symm
  | setAuthzRefusal refusal =>
    exact (Procedure.setHook_eq _ refusal (fun f r => { r with authzRefusal := f }) r).trans
      (Procedure.agreed_attempt r _ _).symm

/-- Both forms of the commands of a run do the same, up to the end of the run. -/
theorem Command.performAll_eq (hr : r.Reachable) (commands : List Command) :
    Command.performAll r commands =
      (Command.applyAll r commands, (Command.runAll r commands).map Run.outcome) := by
  induction commands generalizing r with
  | nil => rfl
  | cons c rest ih =>
    have hrest := ih (hr.step c)
    rw [Command.performAll, c.perform_eq hr, Procedure.agreed, Command.runAll, List.map_cons]
    cases (c.apply r).2.outcome with
    | ok u =>
      dsimp only
      rw [hrest]
      rfl
    | error fault =>
      dsimp only
      rw [hrest]
      rfl

/-- A command that fails, and is not about the resources of a feature, hands out the registry that
it was given, and nothing is logged. -/
theorem Command.apply_of_error (c : Command) (hc : ∀ options, c ≠ .initResources options)
    (hfails : (c.apply r).2.outcome = .error fault) : c.apply r = (r, Run.fail fault) := by
  have hattempt : ∀ events change, (Command.attempt r events change).2.outcome = .error fault →
      Command.attempt r events change = (r, Run.fail fault) := by
    intro events change h
    cases change with
    | ok next => cases h
    | error e =>
      cases h
      rfl
  cases c with
  | initResources options => exact absurd rfl (hc options)
  | _ => exact hattempt _ _ hfails

/-- **Failures leave no trace.**  Let a registry have come about in any way, and let a command be
carried out on it where it stands, with any arguments; only the command that supplies the resources
of a feature is left out.  If it fails, then

* no field of the registry has been written;
* the form of the command that hands out a new registry fails with the same error and hands out
  the old one, and nothing is logged;
* the commands that follow come to the same registry, and each of them to the same end, as if the
  failed one had not been given. -/
theorem failures_leave_no_trace (hr : r.Reachable) (c : Command)
    (hc : ∀ options, c ≠ .initResources options) (hfails : c.perform r = .error fault s) :
    s = r ∧ c.apply r = (r, Run.fail fault) ∧
    ∀ later, Command.performAll r (c :: later) =
      ((Command.performAll r later).1, .error fault :: (Command.performAll r later).2) := by
  have hsame := (c.perform_eq hr).symm.trans hfails
  rw [Procedure.agreed] at hsame
  cases houtcome : (c.apply r).2.outcome with
  | ok u =>
    rw [houtcome] at hsame
    cases hsame
  | error e =>
    have happly := c.apply_of_error hc houtcome
    rw [houtcome, happly] at hsame
    cases hsame
    refine ⟨rfl, happly, fun later => ?_⟩
    rw [Command.performAll, hfails]

/-- A rulebook for users whose second role is not registered; its first one may do all that an
administrator may. -/
def strangerDefinition : Definition :=
  { Rulebook.userDefinition with
    roles := .map [(Role.admin.member, Rulebook.grant .admin),
      (.text "STRANGER", Rulebook.grant .admin)] }

/-- The case of this rulebook: it is turned down at its second role, and then the one of the
application is accepted as if nothing had happened. -/
theorem failures_leave_no_trace_stranger :
    (Rulebook.declared true).Reachable ∧
    (∀ options, Command.addResource Rulebook.userMember strangerDefinition.toValue ≠
      .initResources options) ∧
    (Command.addResource Rulebook.userMember strangerDefinition.toValue).perform
      (Rulebook.declared true) =
        .error (.unknownRole (.text "STRANGER")) (Rulebook.declared true) ∧
    Command.performAll (Rulebook.declared true)
      [.addResource Rulebook.userMember strangerDefinition.toValue,
        .addResource Rulebook.userMember Rulebook.userDefinition.toValue] =
        (Rulebook.registry true, [.error (.unknownRole (.text "STRANGER")), .ok ()]) := by
  have hr : (Rulebook.declared true).Reachable :=
    .fromOptions (Rulebook.fromOptions_rootOptions true)
  have hc : ∀ options, Command.addResource Rulebook.userMember strangerDefinition.toValue ≠
      .initResources options := fun options h => by cases h
  have hname : requireResource Rulebook.userMember = .ok Rulebook.userResource := rfl
  have hfails : (Command.addResource Rulebook.userMember strangerDefinition.toValue).perform
      (Rulebook.declared true) =
        .error (.unknownRole (.text "STRANGER")) (Rulebook.declared true) := by
    have hrejected : (Rulebook.declared true).addResource Rulebook.userMember
        strangerDefinition.toValue = .error (.unknownRole (.text "STRANGER")) := rfl
    rw [Command.perform, Procedure.addResource_eq, hrejected]
    rfl
  have hsecond : (Command.addResource Rulebook.userMember
      Rulebook.userDefinition.toValue).perform (Rulebook.declared true) =
        .ok () (Rulebook.registry true) := by
    rw [Command.perform, Procedure.addResource_eq, addResource, hname, ok_bind]
    exact congrArg (Procedure.settled _) (Rulebook.define_userResource true)
  obtain ⟨-, -, hlater⟩ := failures_leave_no_trace hr _ hc hfails
  refine ⟨hr, hc, hfails, (hlater _).trans ?_⟩
  rw [Command.performAll, hsecond]
  rfl

end Registry

end AccessControl
