import AccessControl.Audit
import AccessControl.Issue
import AccessControl.Value.Equality

/-!
# What can go wrong

An error says what is wrong, and its text follows from that.  There are four families.

* A value is used for something that values of its kind cannot do (`Misuse`).
* A configuration is not acceptable (`ConfigFlaw`, `DefinitionFlaw`, an unknown role or
  resource); the process must not start with it.
* A decision was a denial; the error carries the record of the decision.
* A function supplied by a caller failed.

`Fault.kind` is the short name of an error, which is all that a decision tells about an error
of a predicate.
-/

namespace AccessControl

namespace Call

/-- Several things in one phrase: `a`, `a and b`, `a, b, and c`. -/
def enumerated : List String → String
  | [] => ""
  | [a] => a
  | [a, b] => a ++ " and " ++ b
  | parts => ", ".intercalate parts.dropLast ++ ", and " ++ parts.getLast?.getD ""

/-- The message about a call with an argument that is not known. -/
def unknownArgument (callee key : String) : String :=
  callee ++ "() got an unexpected keyword argument '" ++ key ++ "'"

/-- The message about a call without some of the arguments that are needed. -/
def missingArguments (callee : String) (missing : List String) : String :=
  callee ++ "() missing " ++ toString missing.length ++ " required positional "
    ++ (if missing.length = 1 then "argument: " else "arguments: ")
    ++ enumerated (missing.map fun key => "'" ++ key ++ "'")

end Call

/-- A value used for something that values of its kind cannot do. -/
inductive Misuse
  /-- It is not a collection. -/
  | notIterable (kind : String)
  /-- It cannot be a key. -/
  | unhashable (kind : String)
  /-- It has no such field. -/
  | noField (kind key : String)
  /-- The class has no such field. -/
  | noClassField (name key : String)
  /-- The enumeration has no such member. -/
  | noMember (key : String)
  /-- The element at this place is not a text, but texts were to be joined. -/
  | notJoinable (place : Nat) (kind : String)
  /-- The two have no order. -/
  | unordered (sign left right : String)
  /-- It holds no elements that could be asked for. -/
  | noElements (kind : String)
  /-- It is not a number, nor the text of one. -/
  | notNumeric (kind : String)
  /-- It was called with the wrong arguments. -/
  | wrongArguments (title : String)
  /-- It was to be raised as an error. -/
  | notRaisable
  deriving DecidableEq, Repr

namespace Misuse

/-- The short name of the error. -/
def kind : Misuse → String
  | noField _ _ | noClassField _ _ | noMember _ => "AttributeError"
  | _ => "TypeError"

/-- The text of the error. -/
def message : Misuse → String
  | notIterable kind => "'" ++ kind ++ "' object is not iterable"
  | unhashable kind => "unhashable type: '" ++ kind ++ "'"
  | noField kind key => "'" ++ kind ++ "' object has no attribute '" ++ key ++ "'"
  | noClassField name key => "type object '" ++ name ++ "' has no attribute '" ++ key ++ "'"
  | noMember key => key
  | notJoinable place kind =>
    "sequence item " ++ toString place ++ ": expected str instance, " ++ kind ++ " found"
  | unordered sign left right =>
    "'" ++ sign ++ "' not supported between instances of '" ++ left ++ "' and '" ++ right ++ "'"
  | noElements kind => "argument of type '" ++ kind ++ "' is not iterable"
  | notNumeric kind =>
    "int() argument must be a string, a bytes-like object or a real number, not '" ++ kind ++ "'"
  | wrongArguments title => title ++ " called with unsuitable arguments"
  | notRaisable => "exceptions must derive from BaseException"

end Misuse

namespace Value

variable {ε : Type}

/-- The value can be looked up as a key. -/
def requireKey (misuse : Misuse → ε) (v : Value) : Except ε Unit :=
  match v.unhashable? with
  | some kind => .error (misuse (.unhashable kind))
  | none => .ok ()

/-- The value can be looked up among the elements of a set.  A set can, though it cannot be one of
them: it is looked up as a set that does not change. -/
def requireElement (misuse : Misuse → ε) : Value → Except ε Unit
  | set _ => .ok ()
  | v => v.requireKey misuse

@[simp] theorem requireKey_text (misuse : Misuse → ε) (s : String) :
    requireKey misuse (text s) = .ok () := by
  simp [requireKey]

end Value

/-- What is wrong with a configuration value. -/
inductive ConfigFlaw
  /-- A name or a text is missing or blank. -/
  | blank (what : String)
  /-- It cannot be called. -/
  | notFunction (what : String)
  /-- A role has no definition. -/
  | noRoleDefinition
  /-- The logging flag is not a truth value. -/
  | loggingFlag
  /-- The global checks are not a list. -/
  | checksNotList
  /-- The options are not a map. -/
  | notMapping (what : String) (alternative : String)
  /-- The options have the wrong shape. -/
  | issues (found : List Issue)
  deriving DecidableEq, Repr

namespace ConfigFlaw

/-- The flaw in words. -/
def message : ConfigFlaw → String
  | blank what => what ++ " must be a non-empty string"
  | notFunction what => what ++ " must be a function"
  | noRoleDefinition => "Role definition must be a valid object"
  | loggingFlag => "Logging flag must be a boolean"
  | checksNotList => "Global checks must be a list"
  | notMapping what alternative => what ++ " must be a mapping or " ++ alternative
  | issues found => "; ".intercalate (found.map Issue.line)

end ConfigFlaw

/-- What is wrong with the definition of a resource. -/
inductive DefinitionFlaw
  /-- The resource is declared a second time. -/
  | redeclared
  /-- The resource is defined a second time. -/
  | redefined
  | notDefinition
  | noIdentifier
  | notField (identifier : String) (model : String)
  | levelsNotMapping
  | levelNotFunction (level : Value)
  | levelPriority (level : Value)
  | unknownAction (action : Value)
  | unknownLevel (level : Value)
  | unknownRelationship (relationship : Value)
  /-- A part of the definition is a value of the wrong kind. -/
  | misuse (m : Misuse)

namespace DefinitionFlaw

/-- The flaw in words. -/
def message : DefinitionFlaw → String
  | redeclared => "Definition can't be null because the resource is already registered."
  | redefined => "Resource is already defined; definitions are immutable."
  | notDefinition => "Definition must be a ResourceDefinition"
  | noIdentifier => "Resource definition must have an identifier"
  | notField identifier model => "Identifier \"" ++ identifier ++ "\" is not a field of " ++ model
  | levelsNotMapping => "Access levels must be a mapping of name to AccessLevel"
  | levelNotFunction level =>
    "Access level resolver \"" ++ level.plain ++ "\" must be a function that returns a boolean"
  | levelPriority level =>
    "Access level priority \"" ++ level.plain ++ "\" must be a non-negative integer"
  | unknownAction action => "Action \"" ++ action.plain ++ "\" is not defined for this resource"
  | unknownLevel level => "Access level \"" ++ level.plain ++ "\" is not defined for this resource"
  | unknownRelationship r => "Relationship \"" ++ r.plain ++ "\" is not defined for this resource"
  | misuse m => "Error processing definition: " ++ m.message

end DefinitionFlaw

/-- An error with a status for the client. -/
inductive StatusError
  /-- The application's denial of a request without a valid context. -/
  | unauthenticated (audit : Audit)
  /-- The application's denial of a decision. -/
  | unauthorized (audit : Audit)
  /-- Any other status, with its detail. -/
  | plain (status : Nat) (detail : Value)

namespace StatusError

/-- A detail with a code and a message. -/
def detailOf (code message : String) : Value :=
  .map [(.text "code", .text code), (.text "message", .text message), (.text "detail", .null)]

/-- The status for the client. -/
def status : StatusError → Nat
  | unauthenticated _ => 401
  | unauthorized _ => 403
  | plain status _ => status

/-- What the client is told; it names no check and no level. -/
def detail : StatusError → Value
  | unauthenticated _ => detailOf "not_authenticated" "Not authenticated."
  | unauthorized _ => detailOf "not_authorized" "Not authorized."
  | plain _ detail => detail

/-- The record of the decision behind the error. -/
def audit? : StatusError → Option Audit
  | unauthenticated a => some a
  | unauthorized a => some a
  | plain _ _ => none

end StatusError

/-- An error of the engine. -/
inductive Fault
  /-- A value of the wrong kind. -/
  | misuse (m : Misuse)
  /-- An unacceptable configuration value. -/
  | config (flaw : ConfigFlaw)
  /-- A role that is not registered. -/
  | unknownRole (role : Value)
  /-- A resource that is not declared. -/
  | unknownResource (name : String)
  /-- An unacceptable definition. -/
  | definition (resource : String) (flaw : DefinitionFlaw)
  /-- The engine's denial of a request without a valid context. -/
  | unauthenticated (audit : Audit)
  /-- The engine's denial of a decision. -/
  | unauthorized (audit : Audit)
  /-- An error with a status for the client. -/
  | status (e : StatusError)
  /-- An error of the given kind, raised by a function. -/
  | raised (kind : String) (message : Value)

namespace Fault

/-- The short name of the error. -/
def kind : Fault → String
  | misuse m => m.kind
  | config _ => "ConfigValidationError"
  | unknownRole _ => "RoleNotFoundError"
  | unknownResource _ => "ResourceNotFoundError"
  | definition _ _ => "InvalidResourceDefinitionError"
  | unauthenticated _ => "AuthenticationDenied"
  | unauthorized _ => "AuthorizationDenied"
  | status (.unauthenticated _) => "AuthNException"
  | status (.unauthorized _) => "AuthZException"
  | status (.plain _ _) => "HTTPException"
  | raised kind _ => kind

/-- The text of the error.  An error about a missing key shows the key. -/
def message : Fault → String
  | misuse m => m.message
  | config flaw => "Configuration validation failed: " ++ flaw.message
  | unknownRole role => "Role \"" ++ role.plain ++ "\" is not defined in the registry."
  | unknownResource name =>
    "Resource \"" ++ name ++ "\" not found. "
      ++ "Please make sure that the resource is declared in the root options."
  | definition resource flaw =>
    "Invalid resource definition for \"" ++ resource ++ "\": " ++ flaw.message
  | unauthenticated a => a.message.plain
  | unauthorized a => a.message.plain
  | status e => toString e.status ++ ": " ++ e.detail.plain
  | raised kind text => if kind = "KeyError" then text.shown else text.plain

/-- The error belongs to the configuration: it must stop the process. -/
def isConfiguration : Fault → Bool
  | config _ | unknownRole _ | unknownResource _ | definition _ _ => true
  | _ => false

/-- The record of the decision behind the error. -/
def audit? : Fault → Option Audit
  | unauthenticated a => some a
  | unauthorized a => some a
  | status e => e.audit?
  | _ => none

/-- The short name of the error that this one was made from, if there is one. -/
def cause? : Fault → Option String
  | config (.issues _) => some "ValidationError"
  | definition _ (.misuse m) => some m.kind
  | _ => none

end Fault

end AccessControl
