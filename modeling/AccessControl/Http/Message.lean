import AccessControl.Json.Printer
import AccessControl.Issue
import AccessControl.Fault
import AccessControl.Http.Url
import AccessControl.Text.Case

/-!
# Requests and responses

A request comes with its path decoded and its query as it was sent.  The names of headers are
compared without regard to case, and the first header of a name counts.

The body of a response is empty, a text, or a JSON value.  One kind of JSON body is kept apart:
the list of objections to the body of a request, which goes into the error envelope as text.
-/

namespace AccessControl.Http

/-- A request. -/
structure Request where
  method : String
  /-- The path, without percent forms. -/
  path : String
  query : String
  headers : List (String × String)
  body : List UInt8

namespace Request

/-- The first header with a name, given in small letters. -/
def header? (r : Request) (name : String) : Option String :=
  (r.headers.find? fun h => Text.small h.1 == name).map Prod.snd

/-- The host that the request names. -/
def host (r : Request) : String :=
  (r.header? "host").getD ""

/-- The path of the address, as it is logged. -/
def addressPath (r : Request) : String :=
  Http.addressPath (address r.host r.path r.query)

end Request

/-- What is wrong with the body of a request: where, how, and with which part of it. -/
structure Objection where
  issue : Issue
  input : Value

namespace Objection

/-- A step on the way to a value, as a value. -/
def placeValue : Place → Value
  | .key name => .text name
  | .index n => .int n

/-- The objection as a map. -/
def toValue (o : Objection) : Value :=
  let details := o.issue.complaint.details
  let entries := [(.text "type", .text o.issue.complaint.code),
    (.text "loc", .tuple (o.issue.place.map placeValue)),
    (.text "msg", .text o.issue.complaint.message), (.text "input", o.input)]
  .map (entries ++ if details.isEmpty then []
    else [(.text "ctx", .map (details.map fun d => (.text d.1, d.2)))])

end Objection

/-- The body of a response. -/
inductive Content
  | empty
  | text (s : String)
  | json (v : Value)
  /-- The objections to the body of the request. -/
  | objections (found : List Objection)

/-- An error as the client sees it. -/
def envelope (code message : String) (detail : Value) : Value :=
  .map [(.text "error",
    .map [(.text "code", .text code), (.text "message", .text message), (.text "detail", detail)])]

namespace Content

/-- The body as it is sent. -/
def body : Content → String
  | empty => ""
  | text s => s
  | json v => Json.compact v
  | objections found =>
    let detail := (Value.list (found.map Objection.toValue)).shown
    Json.compact (envelope "validation_error" "Request validation failed." (.text detail))

end Content

/-- A response.  Of its headers only those are kept that say more than its body does. -/
structure Response where
  status : Nat
  headers : List (String × String) := []
  content : Content

namespace Response

/-- A JSON response. -/
def json (status : Nat) (v : Value) : Response := ⟨status, [], .json v⟩

/-- A response in plain text. -/
def text (status : Nat) (s : String) : Response := ⟨status, [], .text s⟩

/-- An error in its envelope. -/
def error (status : Nat) (code message : String) : Response :=
  json status (envelope code message .null)

/-- An error of the transport: it concerns the request as such, and comes without an envelope. -/
def bare (status : Nat) (reason : String) : Response :=
  json status (.map [(.text "detail", .text reason)])

/-- The response with more headers. -/
def withHeaders (r : Response) (headers : List (String × String)) : Response :=
  { r with headers := r.headers ++ headers }

end Response

end AccessControl.Http
