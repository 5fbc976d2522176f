import AccessControl.Fault
import AccessControl.Json.Reader
import AccessControl.Text.Utf8
import AccessControl.Application.Roles

/-!
# What can go wrong in the directory

A seed is refused with an error that names the file; the error inside says what is wrong with a
record.  A number that has no whole part, and bytes that are not text, are reported as they are.
-/

namespace AccessControl

/-- An error of the directory or of its seed. -/
inductive DirectoryFault
  /-- A value of the wrong kind. -/
  | misuse (m : Misuse)
  /-- A record is not a map; the reason says what it is instead. -/
  | notIndexable (reason : String)
  /-- A record has no such entry. -/
  | missingKey (key : String)
  /-- The user id is already taken. -/
  | taken (userId : Value)
  /-- The value is no member of the enumeration. -/
  | notMember (v : Value) (enumeration : String)
  /-- The text is not a whole number. -/
  | badLiteral (v : Value)
  /-- The text has too many digits for a whole number. -/
  | tooManyDigits (count : Nat)
  /-- The float is no number. -/
  | undefinedNumber
  /-- The float is infinite. -/
  | infiniteNumber
  /-- A user has no such field. -/
  | unknownField (key : String)
  /-- A user needs these fields. -/
  | missingFields (keys : List String)
  /-- An argument of the change is given a second time, as a field. -/
  | givenTwice (argument : String)
  /-- The bytes of the seed are not text. -/
  | notText (flaw : Text.Utf8Flaw)
  /-- There is no file. -/
  | noFile (path location : String)
  /-- The seed is not JSON. -/
  | notJson (path text : String) (flaw : JsonFlaw)
  /-- The seed is not a list. -/
  | notList (path : String)
  /-- A record of the seed is refused. -/
  | badRecord (path : String) (why : DirectoryFault)

namespace DirectoryFault

/-- The short name of the error. -/
def kind : DirectoryFault → String
  | misuse m => m.kind
  | notIndexable _ => "TypeError"
  | missingKey _ => "KeyError"
  | taken _ => "KeyError"
  | infiniteNumber => "OverflowError"
  | unknownField _ => "TypeError"
  | missingFields _ => "TypeError"
  | givenTwice _ => "TypeError"
  | notText _ => "UnicodeDecodeError"
  | _ => "ValueError"

/-- How a user is made from the fields. -/
def constructorName : String := "User.__init__"

/-- The text of the error. -/
def message : DirectoryFault → String
  | misuse m => m.message
  | notIndexable reason => reason
  | missingKey key => Text.quoted key
  | taken userId => userId.shown
  | notMember v enumeration => AccessControl.notMember v enumeration
  | badLiteral v =>
    "invalid literal for int() with base 10: " ++ String.ofList (v.shown.toList.take 200)
  | tooManyDigits count => (JsonComplaint.tooManyDigits count).message
  | undefinedNumber => "cannot convert float NaN to integer"
  | infiniteNumber => "cannot convert float infinity to integer"
  | unknownField key => Call.unknownArgument constructorName key
  | missingFields keys => Call.missingArguments constructorName keys
  | givenTwice argument =>
    "UserDirectory.update() got multiple values for argument '" ++ argument ++ "'"
  | notText flaw => flaw.message
  | noFile path location =>
    "Could not read user seed file '" ++ path ++ "': [Errno 2] No such file or directory: "
      ++ Text.quoted location
  | notJson path text flaw =>
    match flaw.complaint with
    | .tooManyDigits _ => flaw.message text
    | _ => "Could not read user seed file '" ++ path ++ "': " ++ flaw.message text
  | notList path => "User seed file '" ++ path ++ "' must contain a JSON list"
  | badRecord path why => "Invalid user record in '" ++ path ++ "': " ++ why.message

/-- The short name of the error behind this one, if there is one. -/
def cause? : DirectoryFault → Option String
  | noFile _ _ => some "FileNotFoundError"
  | notJson _ _ flaw =>
    match flaw.complaint with
    | .tooManyDigits _ => none
    | _ => some "JSONDecodeError"
  | badRecord _ why => some why.kind
  | _ => none

end DirectoryFault

end AccessControl
