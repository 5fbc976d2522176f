import AccessControl.Http.Handler
import AccessControl.Decision
import AccessControl.Application.Rulebook
import AccessControl.Settings.Basic

/-!
# Who is calling

The gateway in front of the server forwards the id of the user it has authenticated.  Once per
request the resolver of the registry turns the request into a context: that of the user with this
id, or none.  A resolver that fails is logged, and the request counts as one that nobody made.

Whether the context is good enough is decided where it is needed.  Some routes are public.
-/

namespace AccessControl.Http

/-- What is known about the caller of a request. -/
inductive Caller
  /-- The resolver failed. -/
  | unresolved
  /-- The context, which is null if nobody is known. -/
  | resolved (context : Value)

namespace Caller

/-- The log line for a resolver that failed. -/
def failureLine (r : Request) (kind : String) : LogRecord where
  logger := "gatekeeper.authz.http"
  level := .error
  message := "Context resolver failed on " ++ r.method ++ " " ++ r.addressPath
  fault := some kind

/-- A resolver that failed with an error of this kind. -/
def failed (r : Request) (kind : String) : Handler Caller := do
  Handler.log (failureLine r kind)
  return .unresolved

/-- The user whose id is forwarded. -/
def forwarded (s : Settings) (r : Request) : Handler Caller := do
  let userId := (r.header? (Text.small s.identityHeader)).getD ""
  if userId.isEmpty then return .resolved .null
  match ← Handler.tryCall (.get (.text userId)) with
  | .error e => failed r e.kind
  | .ok none => return .resolved .null
  | .ok (some u) =>
    match u.toContext with
    | .ok context => return .resolved context
    | .error m => failed r m.kind

/-- Finds the caller of a request. -/
def resolve (s : Settings) (resolver : Option Callable) (r : Request) : Handler Caller :=
  match resolver with
  | none => return .resolved .null
  | some (.resolver .directory) => forwarded s r
  | some (.resolver .broken) => failed r "RuntimeError"
  | some (.resolver (.fixed context)) => return .resolved context
  | some _ => failed r "TypeError"

end Caller

/-- What a route needs in order to decide: the engine, and the caller. -/
structure Access where
  interpretation : Interpretation
  registry : Registry
  caller : Caller

namespace Access

/-- Turns the request away. -/
def turnAway (a : Access) (message resource : String) : Handler Value :=
  Handler.ofRun (AccessControl.turnAway a.interpretation a.registry (.text message)
    (.text resource) (.text "unknown"))

/-- The context of the caller, if it counts; otherwise the request is turned away. -/
def authenticated (a : Access) : Handler Value :=
  match a.caller with
  | .unresolved => a.turnAway "Failed to resolve context" "system"
  | .resolved context =>
    if context.isNull then a.turnAway "Authentication required" "authentication"
    else Handler.ofRun (authenticate a.interpretation a.registry context)

/-- Answers a question about the caller. -/
def decide (a : Access) (context : Value) (q : Query) : Handler Answer :=
  Handler.ofRun (q.decide a.interpretation a.registry context)

/-- The context of the caller, if the caller's role is granted the action on users at all. -/
def permitted (a : Access) (action : UserAction) : Handler Value := do
  let context ← a.authenticated
  let _ ← a.decide context (.permission Rulebook.userMember action.member [])
  return context

/-- Goes on only if the caller may apply the action to this user. -/
def may (a : Access) (context : Value) (action : UserAction) (u : User) : Handler Unit := do
  let _ ← a.decide context (.instanceOf Rulebook.userMember action.member u.toValue)
  return ()

end Access

end AccessControl.Http
