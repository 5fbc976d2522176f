import AccessControl.Registry.Validation
import AccessControl.Options.Root
import AccessControl.Options.Feature
import AccessControl.Run

/-!
# Building a registry

A registry is built from the options of the application root, and the features then supply the
rulebooks of the resources that the root has declared.  An unacceptable configuration is logged
and raised: the process must not start with it.

Every change of a registry is a `Registry.Command`.  A command that fails leaves the registry as
it was, with one exception: a feature with several resources keeps those that were defined before
the one that is at fault.
-/

namespace AccessControl

namespace Registry

/-- A line of the registry's log. -/
def logLine (level : Level) (message : String) : LogRecord where
  logger := "gatekeeper.authz.registry"
  level := level
  message := message

/-- What is logged about a configuration error; other errors are not logged. -/
def failureEvents (e : Fault) : List Event :=
  if e.isConfiguration then
    [.logged (logLine .error ("AuthZ configuration failed: " ++ e.message))]
  else []

/-! ## 1. Root options -/

/-- The registry that root options describe: roles, resources, the default role, the checks and
the hooks, in this order. -/
def build (o : RootOptions) : Except Fault Registry := do
  let r ← o.roles.foldlM (fun r role => r.addRole (.text role.1) role.2) empty
  let r ← o.resources.foldlM (fun r name => r.addResource (.text name) .null) r
  let r ← r.setDefaultRole (.text o.defaultRole) false
  let r ← r.setChecks (.list o.checks)
  return { r with
    resolver := some o.resolver
    logging := o.logging.getD r.logging
    sink := o.sink.getD r.sink
    authnRefusal := o.authnRefusal.getD r.authnRefusal
    authzRefusal := o.authzRefusal.getD r.authzRefusal }

/-- The line that announces a registry. -/
def readyMessage (r : Registry) : String :=
  "AuthZ registry initialized (" ++ toString r.roles.length ++ " roles, "
    ++ toString r.resources.length ++ " resources, default=" ++ r.defaultRole.getD "None" ++ ")"

/-- The registry that option values describe. -/
def fromOptions (v : Value) : Run Registry :=
  match (RootOptions.parse v).bind build with
  | .ok r => ⟨[.logged (logLine .info r.readyMessage)], .ok r⟩
  | .error e => ⟨failureEvents e, .error e⟩

/-! ## 2. Commands -/

/-- What is logged when a resource has been added. -/
def additionEvents (resource : String) (definition : Value) : List Event :=
  if definition.isNull then []
  else [.logged (logLine .debug ("Resource " ++ resource ++ " defined"))]

/-- Defines the resources of a feature one after the other, up to the first that is at fault.
Every resource has to be declared already. -/
def defineAll (r : Registry) : List FeatureEntry → Registry × Run Unit
  | [] => (r, Run.pure ())
  | e :: rest =>
    if !r.hasResource e.name then (r, Run.fail (.unknownResource e.name))
    else match r.addResource (.text e.name) e.definition.toValue with
      | .error fault => (r, Run.fail fault)
      | .ok next =>
        let after := defineAll next rest
        (after.1, ⟨additionEvents e.name e.definition.toValue ++ after.2.events, after.2.outcome⟩)

/-- Supplies the rulebooks of a feature. -/
def initResources (r : Registry) (v : Value) : Registry × Run Unit :=
  match FeatureOptions.parse v with
  | .error e => (r, ⟨failureEvents e, .error e⟩)
  | .ok options =>
    let done := r.defineAll options.resources
    match done.2.outcome with
    | .ok () => done
    | .error e => (done.1, ⟨done.2.events ++ failureEvents e, .error e⟩)

/-- A change of a registry. -/
inductive Command
  | addRole (role definition : Value)
  | setDefaultRole (role : Value) (force : Bool)
  | addResource (resource definition : Value)
  | initResources (options : Value)
  | setChecks (checks : Value)
  | setLogging (enabled : Value)
  | setSink (sink : Value)
  | setAuthnRefusal (refusal : Value)
  | setAuthzRefusal (refusal : Value)

namespace Command

/-- The registry after a change that either succeeds or leaves it as it was. -/
def attempt (r : Registry) (events : List Event) (change : Except Fault Registry) :
    Registry × Run Unit :=
  match change with
  | .ok next => (next, ⟨events, .ok ()⟩)
  | .error e => (r, Run.fail e)

/-- Carries a change out. -/
def apply (r : Registry) : Command → Registry × Run Unit
  | addRole role definition => attempt r [] (r.addRole role definition)
  | setDefaultRole role force => attempt r [] (r.setDefaultRole role force)
  | addResource resource definition =>
    attempt r (additionEvents ((resource.name.text?).getD "") definition)
      (r.addResource resource definition)
  | initResources options => r.initResources options
  | setChecks checks => attempt r [] (r.setChecks checks)
  | setLogging enabled => attempt r [] (r.setLogging enabled)
  | setSink sink => attempt r [] (r.setSink sink)
  | setAuthnRefusal refusal => attempt r [] (r.setAuthnRefusal refusal)
  | setAuthzRefusal refusal => attempt r [] (r.setAuthzRefusal refusal)

/-- Carries several changes out, one after the other, whether or not they succeed. -/
def applyAll (r : Registry) (commands : List Command) : Registry :=
  commands.foldl (fun r c => (c.apply r).1) r

end Command

end Registry

end AccessControl
