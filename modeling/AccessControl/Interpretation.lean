import AccessControl.Run
import AccessControl.Value.Equality

/-!
# What functions do when they are called

The engine calls functions in three situations, and only what it learns from them matters.

* A *predicate* is called with a context, or with a context and an instance.  It gives a value
  or an error.
* A *sink* is given the record of a decision.
* A *refusal* makes an error from the record of a denial.

An `Interpretation` says what every function does in each of these situations.  The engine is
defined for any interpretation, so that its laws hold for predicates and hooks of every kind;
`Interpretation.standard` is the one in which supplied functions compute their expressions and
the library's own functions do what their names say.
-/

namespace AccessControl

/-- What every function does when it is called. -/
structure Interpretation where
  /-- Calls a predicate. -/
  evaluate : Callable → List Value → Except Fault Value
  /-- Gives a record to a sink. -/
  deliver : Callable → Audit → Run Unit
  /-- Makes an error from the record of a denial. -/
  refuse : Callable → Audit → Fault

/-! ## 1. Expressions -/

namespace Expr

/-- A field of the context. -/
def contextField (context : Value) (key : String) : Except Fault Value :=
  match context.field? key with
  | some v => .ok v
  | none => .error (.misuse (.noField context.operandName key))

/-- The value of an instance under a key, or its field of that name. -/
def resourceField (resource : Value) (key : String) : Except Fault Value :=
  match resource.entries? with
  | some es => match Value.find? (.text key) es with
    | some v => .ok v
    | none => .error (.raised "KeyError" (.text key))
  | none => contextField resource key

/-- The value of an expression. -/
def evaluate (context resource : Value) : Expr → Except Fault Value
  | const v => .ok v
  | .context key => contextField context key
  | .resource key => resourceField resource key
  | .fail kind => .error (.raised kind (.text ""))
  | .not e => do
    let v ← evaluate context resource e
    return .bool (!v.truthy)
  | .eq a b => do
    let v ← evaluate context resource a
    let w ← evaluate context resource b
    return .bool (v.same w)
  | .le a b => do
    let v ← evaluate context resource a
    let w ← evaluate context resource b
    match v.le? w with
    | some answer => return .bool answer
    | none => throw (.misuse (.unordered "<=" v.typeName w.typeName))
  | .mem a b => do
    let v ← evaluate context resource a
    let w ← evaluate context resource b
    match Value.contains? v w with
    | some answer => return .bool answer
    | none => throw (.misuse (.noElements w.typeName))

end Expr

/-! ## 2. The rulebook's own predicates -/

namespace Rule

/-- The expression of a predicate on a context and an instance. -/
def body : Rule → Expr
  | anyone => .const (.bool true)
  | equalOrLowerRank => .le (.context "rank") (.resource "rank")
  | ownRecord => .eq (.context "user_id") (.resource "user_id")
  | assignedRecord => .mem (.resource "user_id") (.context "assigned_users")
  | activeAccount => .context "is_active"

/-- How many arguments the predicate takes. -/
def arity : Rule → Nat
  | activeAccount => 1
  | _ => 2

end Rule

namespace Interpretation

/-- A call with arguments that the function does not take. -/
def unsuitable (f : Callable) : Fault :=
  .misuse (.wrongArguments f.title)

/-- The rulebook's predicates look at fields only: an instance that is a map has none. -/
def evaluateRule (r : Rule) (context resource : Value) : Except Fault Value :=
  let fields (v : Value) : Value := if v.entries?.isSome then .record .loose [] else v
  r.body.evaluate context (fields resource)

/-- Calls a predicate. -/
def standardEvaluate (f : Callable) (arguments : List Value) : Except Fault Value :=
  match f, arguments with
  | .defined _ body, [context] => body.evaluate context .null
  | .defined _ body, [context, resource] => body.evaluate context resource
  | .rule r, [context] =>
    if r.arity = 1 then evaluateRule r context .null else .error (unsuitable f)
  | .rule r, [context, resource] =>
    if r.arity = 2 then evaluateRule r context resource else .error (unsuitable f)
  | .enumeration name members, [v] =>
    match members.find? fun m => v.same m.2 with
    | some m => .ok (.member name m.1 m.2)
    | none => .error (.raised "ValueError" (.text (v.shown ++ " is not a valid " ++ name)))
  | .model m, arguments =>
    if m.closed && m.fields.length == arguments.length then
      .ok (.record (.instanceOf m.name) (m.fields.zip arguments))
    else .error (unsuitable f)
  | _, _ => .error (unsuitable f)

/-! ## 3. Sinks -/

/-- Allowances are logged as information, denials as warnings. -/
def auditLevel (a : Audit) : Level :=
  if a.allowed then .info else .warning

/-- The engine's log line for a record. -/
def engineLine (a : Audit) : LogRecord where
  logger := "gatekeeper.authz.audit"
  level := auditLevel a
  message := a.subject.method ++ " " ++ a.resource.plain ++ " user=" ++ a.userId.plain ++ " "
    ++ a.result.label ++ ": " ++ a.message.plain
  audit := some a

/-- The application's log line for a record. -/
def securityLine (a : Audit) : LogRecord where
  logger := "gatekeeper.security"
  level := auditLevel a
  message := a.message.plain
  audit := some a
  category := some "security"

/-- Gives a record to a sink of the library. -/
def deliverTo (s : Sink) (a : Audit) : Run Unit :=
  match s with
  | .capture => Run.emit (.audited a)
  | .engineLog => Run.log (engineLine a)
  | .securityLog => Run.log (securityLine a)
  | .offline => Run.fail (.raised "RuntimeError" (.text "sink offline"))
  | .evicting userId =>
    match a.subject with
    | .instanceOf _ _ => Run.emit (.evicted userId)
    | _ => Run.pure ()

/-- Gives a record to any function. -/
def standardDeliver (f : Callable) (a : Audit) : Run Unit :=
  match f with
  | .sink s => deliverTo s a
  | .refusal _ => Run.pure ()
  | .integer => Run.fail (.misuse (.notNumeric a.subject.recordName))
  | f =>
    match standardEvaluate f [a.toValue] with
    | .ok _ => Run.pure ()
    | .error e => Run.fail e

/-! ## 4. Refusals -/

/-- The error that a refusal of the library makes. -/
def refusalFault (r : Refusal) (a : Audit) : Fault :=
  match r with
  | .unauthenticated => .unauthenticated a
  | .unauthorized => .unauthorized a
  | .httpUnauthenticated => .status (.unauthenticated a)
  | .httpUnauthorized => .status (.unauthorized a)
  | .httpStatus status => .status (.plain status a.message)
  | .errorOf kind => .raised kind a.message

/-- The error that any function makes; a value that it gives instead cannot be raised. -/
def standardRefuse (f : Callable) (a : Audit) : Fault :=
  match f with
  | .refusal r => refusalFault r a
  | .integer => .misuse (.notNumeric a.subject.recordName)
  | .sink _ => .misuse .notRaisable
  | f =>
    match standardEvaluate f [a.toValue] with
    | .ok _ => .misuse .notRaisable
    | .error e => e

/-- Supplied functions compute their expressions; the library's own do what their names say. -/
def standard : Interpretation where
  evaluate := standardEvaluate
  deliver := standardDeliver
  refuse := standardRefuse

end Interpretation

end AccessControl
