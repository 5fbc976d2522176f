/-!
# Values

A declaration may put any value in any place: a number where a name is expected, a list where a
definition is expected, a name given as the member of an enumeration instead of as text.  What
is done with such a value is part of the behaviour of the library, so declarations, contexts,
instances and directory fields are all made of one type of values.

Functions are values too.  A function that the library itself provides is named by what it does;
a function that a caller supplies is a label and an expression over the context and the
instance it is called with.

## 1. Names

`Value.name` is the plain name behind a member of an enumeration.  A member whose value is text
behaves as that text everywhere else; any other member equals nothing.
-/

namespace AccessControl

/-- Which kind of record a value is. -/
inductive Shape
  /-- A predicate with its priority. -/
  | accessLevel
  /-- What a role is granted on a resource. -/
  | grant
  /-- The rulebook of a resource. -/
  | definition
  /-- A predicate on contexts that every request has to pass. -/
  | check
  /-- The principal of the application. -/
  | context
  /-- The least a principal has to be: an id and a role. -/
  | principal
  /-- A record of fields with no declared type. -/
  | loose
  /-- A user of the directory. -/
  | user
  /-- What is known of a role. -/
  | roleDefinition
  /-- The options of the application. -/
  | rootOptions
  /-- The options of a feature. -/
  | featureOptions
  /-- One resource among the options of a feature. -/
  | entry
  /-- The record of a decision. -/
  | audit (typeName : String)
  /-- An instance of a model that a caller declared. -/
  | instanceOf (model : String)
  deriving DecidableEq, Repr

/-- A class of instances that a definition may name.  When it is `closed` it has exactly the
listed fields; otherwise an empty list means that its fields are not known. -/
structure Model where
  name : String
  fields : List String
  closed : Bool
  deriving DecidableEq, Repr

/-- The predicates of the application's own rulebook. -/
inductive Rule
  /-- Accepts every instance. -/
  | anyone
  /-- The instance has the authority of the context, or less. -/
  | equalOrLowerRank
  /-- The instance is the record of the context. -/
  | ownRecord
  /-- The instance is assigned to the context. -/
  | assignedRecord
  /-- The account of the context is active. -/
  | activeAccount
  deriving DecidableEq, Repr

/-- How a denial becomes an error. -/
inductive Refusal
  /-- The engine's own denial of a request without a valid context. -/
  | unauthenticated
  /-- The engine's own denial of a decision. -/
  | unauthorized
  /-- The application's denial of a request without a valid context. -/
  | httpUnauthenticated
  /-- The application's denial of a decision. -/
  | httpUnauthorized
  /-- A plain response with the given status and the message of the record. -/
  | httpStatus (status : Nat)
  /-- An error of the given kind with the message of the record. -/
  | errorOf (kind : String)
  deriving DecidableEq, Repr

mutual

/-- A value of any kind. -/
inductive Value
  | null
  | bool (b : Bool)
  | int (n : Int)
  | float (x : Float)
  | text (s : String)
  | bytes (data : List UInt8)
  | list (items : List Value)
  | tuple (items : List Value)
  | set (items : List Value)
  /-- Keys and values in the order of insertion; no key occurs twice. -/
  | map (entries : List (Value × Value))
  /-- A map that can only be read. -/
  | view (entries : List (Value × Value))
  /-- A member of an enumeration. -/
  | member (enumeration name : String) (value : Value)
  | record (shape : Shape) (fields : List (String × Value))
  | callable (f : Callable)

/-- What can be called. -/
inductive Callable
  /-- A function that a caller supplies. -/
  | defined (label : String) (body : Expr)
  | rule (r : Rule)
  | sink (s : Sink)
  | refusal (r : Refusal)
  | resolver (r : Resolver)
  /-- An enumeration: called, it looks a member up. -/
  | enumeration (name : String) (members : List (String × Value))
  /-- A model: called, it makes an instance. -/
  | model (m : Model)
  /-- Reads a whole number. -/
  | integer

/-- Where the record of a decision goes. -/
inductive Sink
  /-- Keeps the record. -/
  | capture
  /-- Logs the record under the name of the engine. -/
  | engineLog
  /-- Logs the record as a matter of security. -/
  | securityLog
  /-- Cannot be reached. -/
  | offline
  /-- Removes a user from the directory whenever an instance was decided about. -/
  | evicting (userId : Value)

/-- How the context of a request is found. -/
inductive Resolver
  /-- Looks the forwarded user id up in the directory. -/
  | directory
  /-- Fails. -/
  | broken
  /-- Always gives the same context. -/
  | fixed (context : Value)

/-- What a function supplied by a caller computes. -/
inductive Expr
  | const (v : Value)
  /-- A field of the context. -/
  | context (key : String)
  /-- A key or a field of the instance. -/
  | resource (key : String)
  /-- Fails with an error of the given kind. -/
  | fail (kind : String)
  | not (e : Expr)
  | eq (a b : Expr)
  | le (a b : Expr)
  | mem (a b : Expr)

end

instance : Inhabited Value := ⟨.null⟩

namespace Value

/-- The plain name behind a member of an enumeration; any other value is its own name. -/
def name : Value → Value
  | member _ _ v => v
  | v => v

@[simp] theorem name_text (s : String) : name (text s) = text s := rfl

@[simp] theorem name_member (e n : String) (v : Value) : name (member e n v) = v := rfl

/-- The text that the value is, directly or as the member of an enumeration of texts. -/
def text? : Value → Option String
  | text s => some s
  | member _ _ (text s) => some s
  | _ => none

@[simp] theorem text?_text (s : String) : text? (text s) = some s := rfl

@[simp] theorem text?_member_text (e n s : String) : text? (member e n (text s)) = some s := rfl

/-- The entries of a map of either kind. -/
def entries? : Value → Option (List (Value × Value))
  | map es => some es
  | view es => some es
  | _ => none

/-- The members of an enumeration that are not further names for an earlier one; `seen` are the
values of the members before. -/
def distinctMembers (same : Value → Value → Bool) (seen : List Value) :
    List (String × Value) → List (String × Value)
  | [] => []
  | m :: rest =>
    if seen.any (same · m.2) then distinctMembers same seen rest
    else m :: distinctMembers same (m.2 :: seen) rest

/-- The value is the absence of a value. -/
def isNull : Value → Bool
  | null => true
  | _ => false

/-- Whether a value counts as true.  Nothing, zero and what is empty count as false. -/
def truthy : Value → Bool
  | null => false
  | bool b => b
  | int n => n != 0
  | float x => x != 0.0
  | text s => !s.isEmpty
  | bytes data => !data.isEmpty
  | list items => !items.isEmpty
  | tuple items => !items.isEmpty
  | set items => !items.isEmpty
  | map es => !es.isEmpty
  | view es => !es.isEmpty
  | member _ _ (text s) => !s.isEmpty
  | member _ _ _ => true
  | record _ _ => true
  | callable _ => true

/-- The value can be called. -/
def callable? : Value → Option Callable
  | callable f => some f
  | _ => none

/-- A field of a value.  Records have their fields, members of an enumeration their name
and value, and an enumeration its members. -/
def field? (key : String) : Value → Option Value
  | record _ fields => fields.lookup key
  | member _ n v =>
    if key = "name" then some (text n) else if key = "value" then some v else none
  | callable (.enumeration e members) => (members.lookup key).map fun v => member e key v
  | _ => none

end Value

namespace Shape

/-- The name under which a shape appears in messages. -/
def typeName : Shape → String
  | accessLevel => "AccessLevel"
  | grant => "RoleGrant"
  | definition => "ResourceDefinition"
  | check => "GlobalCheck"
  | context => "AppContext"
  | principal => "BaseContext"
  | loose => "SimpleNamespace"
  | user => "User"
  | roleDefinition => "RoleDefinition"
  | rootOptions => "AuthZRootOptions"
  | featureOptions => "AuthZFeatureOptions"
  | entry => "ResourceEntry"
  | audit typeName => typeName
  | instanceOf model => model

end Shape

namespace Value

/-- The name of the kind of a value, as messages of the library give it. -/
def typeName : Value → String
  | null => "NoneType"
  | bool _ => "bool"
  | int _ => "int"
  | float _ => "float"
  | text _ => "str"
  | bytes _ => "bytes"
  | list _ => "list"
  | tuple _ => "tuple"
  | set _ => "set"
  | map _ => "dict"
  | view _ => "mappingproxy"
  | member e _ _ => e
  | record shape _ => shape.typeName
  | callable (.enumeration _ _) => "EnumType"
  | callable (.model _) => "type"
  | callable .integer => "type"
  | callable (.sink .capture) => "builtin_function_or_method"
  | callable _ => "function"

/-- The name of the kind of a value, as messages about an unsuitable operand give it. -/
def operandName : Value → String
  | record .loose _ => "types.SimpleNamespace"
  | v => v.typeName

end Value

end AccessControl
