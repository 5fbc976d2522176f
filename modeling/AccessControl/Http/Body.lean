import AccessControl.Http.Failure
import AccessControl.Text.Encoding
import AccessControl.Text.Blank

/-!
# The body of a request

A body counts as JSON only if its content type says so.  JSON that does not fit is reported with
its place; bytes that are no text, and numbers of too many digits, are not even that.  Any other
body is taken as the bytes that it is.

Half of a surrogate pair in a text of a body is read as the replacement character, as it is
everywhere (`Json.readNoting`).  A service that keeps halves refuses such a text where it asks for
a text, so that none gets into its directory through a body.
-/

namespace AccessControl.Http

/-- The content type is `application/json` or `application/` something `+json`, whatever
parameters follow. -/
def isJsonType (contentType : String) : Bool :=
  let plain := String.ofList (contentType.toList.takeWhile (· != ';'))
  let type := Text.small (Text.trimBy Text.isBlank plain)
  match splitAt '/' type.toList with
  | [main, sub] =>
    String.ofList main == "application"
      && (String.ofList sub == "json" || (String.ofList sub).endsWith "+json")
  | _ => false

/-- The objection to a text that is not JSON. -/
def jsonObjection (flaw : JsonFlaw) : Objection where
  issue := ⟨[.key "body", .index flaw.place], .notJson flaw.complaint.message⟩
  input := .map []

/-- The JSON value that bytes are. -/
def readJson (data : List UInt8) : Except Failure Value :=
  match Text.decodeAny data with
  | none => .error .unreadableBody
  | some text =>
    match Json.readChars text.toList with
    | .ok v => .ok v
    | .error flaw =>
      match flaw.complaint with
      | .tooManyDigits _ => .error .unreadableBody
      | _ => .error (.invalidBody [jsonObjection flaw])

/-- The value of the body, if there is a body. -/
def Request.readBody (r : Request) : Except Failure (Option Value) :=
  if r.body.isEmpty then .ok none
  else if ((r.header? "content-type").map isJsonType).getD false then (readJson r.body).map some
  else .ok (some (.bytes r.body))

end AccessControl.Http
