import AccessControl.Directory.Basic
import AccessControl.Run
import AccessControl.Text.Lines

/-!
# Seeding the directory

A directory can start from a file: a JSON list of records.  A record has a role and a user id;
the rank defaults to the rank of the role, the status to active, and the rest to nothing.  A
value is converted where a text, a whole number or a member is needed, and a record for which
that is impossible is refused, and the whole seed with it.
-/

namespace AccessControl

namespace Seed

/-! ## 1. Records -/

/-- Why a value that is not a map has no entries. -/
def notIndexable (v : Value) : DirectoryFault :=
  match v with
  | .list _ => .notIndexable "list indices must be integers or slices, not str"
  | .tuple _ => .notIndexable "tuple indices must be integers or slices, not str"
  | .bytes _ => .notIndexable "byte indices must be integers or slices, not str"
  | v =>
    if v.text?.isSome then .notIndexable "string indices must be integers, not 'str'"
    else .notIndexable ("'" ++ v.operandName ++ "' object is not subscriptable")

/-- An entry that a record has to have. -/
def required (record : Value) (key : String) : Except DirectoryFault Value :=
  match record.entries? with
  | some es =>
    match Value.find? (.text key) es with
    | some v => .ok v
    | none => .error (.missingKey key)
  | none => .error (notIndexable record)

/-- An entry that a record may have. -/
def optional (record : Value) (key : String) (default : Value) : Value :=
  ((record.entries?.bind fun es => Value.find? (.text key) es)).getD default

/-- The digits of a text, as far as its length matters. -/
def digitCount (s : String) : Nat :=
  (s.toList.filter fun c => (Text.digitValue? c).isSome).length

/-- Reads a whole number from a text. -/
def readInt (v : Value) (s : String) : Except DirectoryFault Int :=
  match Decimal.readInt? s with
  | some n =>
    if Json.mostDigits < digitCount s then .error (.tooManyDigits (digitCount s)) else .ok n
  | none => .error (.badLiteral v)

/-- The whole number that a value is or stands for. -/
def toInt (v : Value) : Except DirectoryFault Int :=
  match v with
  | .int n => .ok n
  | .bool b => .ok (if b then 1 else 0)
  | .float x =>
    match FloatValue.ofFloat x with
    | .finite b => .ok b.truncate
    | .infinite _ => .error .infiniteNumber
    | .undefined => .error .undefinedNumber
  | .bytes data =>
    if data.all fun b => b.toNat < 0x80 then
      readInt v (String.ofList (data.map fun b => Char.ofNat b.toNat))
    else .error (.badLiteral v)
  | v =>
    match v.text? with
    | some s => readInt (.text s) s
    | none => .error (.misuse (.notNumeric v.operandName))

/-- The role that a value names. -/
def toRole (v : Value) : Except DirectoryFault Role :=
  match Role.ofValue? v with
  | some r => .ok r
  | none => .error (.notMember v "Roles")

/-- The status that a value names. -/
def toStatus (v : Value) : Except DirectoryFault Status :=
  match Status.ofValue? v with
  | some s => .ok s
  | none => .error (.notMember v "UserStatus")

/-- The ids that a value lists, as texts. -/
def toIds (v : Value) : Except DirectoryFault Value :=
  match v.items? with
  | some items => .ok (.list (items.map fun u => .text u.plain))
  | none => .error (.misuse (.notIterable v.operandName))

/-- The user that a record describes. -/
def readUser (record : Value) : Except DirectoryFault User := do
  let role ← toRole (← required record "role")
  let userId ← required record "user_id"
  let rank ← toInt (optional record "rank" (.int role.rank))
  let status ← toStatus (optional record "status" (.text Status.active.name))
  let assigned ← toIds (optional record "assigned_users" (.list []))
  return {
    userId := .text userId.plain
    email := optional record "email" (.text "")
    role := .text role.name
    rank := .int rank
    status := status.member
    displayName := optional record "display_name" (.text "")
    assignedUsers := assigned }

/-- The fields without which there is no user. -/
def neededFields : List String :=
  ["user_id", "email", "role", "rank"]

/-- The user with the given fields.  Only the status is converted. -/
def userOfFields (fields : List (String × Value)) : Except DirectoryFault User := do
  let status ← match fields.lookup "status" with
    | some v => (toStatus v).map fun s => some s.member
    | none => pure none
  match fields.find? fun f => !User.fieldNames.contains f.1 with
  | some f => throw (.unknownField f.1)
  | none =>
    let missing := neededFields.filter fun key => (fields.lookup key).isNone
    if !missing.isEmpty then throw (.missingFields missing)
    return User.ofRecord fun key => if key = "status" then status else fields.lookup key

/-! ## 2. Files -/

/-- The steps of a path without detours; `up` are the steps so far, in reverse. -/
def walk (up : List String) : List String → List String
  | [] => up.reverse
  | "" :: rest => walk up rest
  | "." :: rest => walk up rest
  | ".." :: rest => walk up.tail rest
  | step :: rest => walk (step :: up) rest

/-- Where a path leads, from a directory. -/
def resolve (base path : String) : String :=
  if path.startsWith "/" then "/" ++ "/".intercalate (walk [] (path.splitOn "/"))
  else "/".intercalate (walk [base] (path.splitOn "/"))

/-- Errors of a record that are reported under the name of the file. -/
def belongsToRecord (e : DirectoryFault) : Bool :=
  e.kind == "KeyError" || e.kind == "ValueError" || e.kind == "TypeError"

/-- The users that the records of a seed describe, up to the first that is refused. -/
def readUsers (path : String) : List Value → Except DirectoryFault (List User)
  | [] => .ok []
  | record :: rest =>
    match readUser record with
    | .ok u => (readUsers path rest).map (u :: ·)
    | .error e => .error (if belongsToRecord e then .badRecord path e else e)

/-- The users in the contents of a seed file. -/
def readFile (path location : String) (contents : Option (List UInt8)) :
    Except DirectoryFault (List User) :=
  match contents with
  | none => .error (.noFile path location)
  | some data =>
    match Text.utf8Text data with
    | .error flaw => .error (.notText flaw)
    | .ok raw =>
      let text := String.ofList (Text.plainLines raw.toList)
      match Json.read text with
      | .error flaw => .error (.notJson path text flaw)
      | .ok (.list records) => readUsers path records
      | .ok _ => .error (.notList path)

/-- The line that announces the users of a seed. -/
def loadedLine (count : Nat) (location : String) : LogRecord where
  logger := "gatekeeper.identity"
  level := .info
  message := "Loaded " ++ toString count ++ " users from " ++ location

/-- The directory that a seed file describes, with what is logged on the way. -/
def load (path location : String) (contents : Option (List UInt8)) :
    List Event × Except DirectoryFault Directory :=
  match readFile path location contents with
  | .error e => ([], .error e)
  | .ok users => ([.logged (loadedLine users.length location)], Directory.empty.addAll users)

end Seed

end AccessControl
