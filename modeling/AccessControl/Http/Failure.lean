import AccessControl.Http.Message
import AccessControl.Directory.Fault
import AccessControl.RoleReport

/-!
# Failures of a request

A request can fail in many ways, and for most of them there is a response.  The client is told no
more than that it is not authenticated, not authorized, or what is wrong with its own request; the
reasons of a denial stay in the record of the decision.  A failure for which there is no response
is the server's own: it is logged, and the client gets a response that says nothing about it.
-/

namespace AccessControl.Http

/-- Why a request fails. -/
inductive Failure
  /-- The engine, a hook or a handler ended the request with an error. -/
  | fault (f : Fault)
  /-- The directory refused a call. -/
  | directory (f : DirectoryFault)
  /-- The body cannot be read at all. -/
  | unreadableBody
  /-- The body of the request is not what it should be. -/
  | invalidBody (found : List Objection)
  /-- A record has no place in a response. -/
  | unpresentable (found : List Issue)
  /-- A role has no place in a response. -/
  | report (flaw : RoleReport.Flaw)
  /-- A part of a role's definition cannot be written. -/
  | unwritable

namespace Failure

/-- An error for the client, with a code and a message. -/
def refused (status : Nat) (code message : String) : Failure :=
  .fault (.status (.plain status (StatusError.detailOf code message)))

/-- There is no user with this id. -/
def noUser (userId : Value) : Failure :=
  refused 404 "not_found" ("User '" ++ userId.plain ++ "' not found.")

/-- There is no role with this name. -/
def noRole (role : String) : Failure :=
  refused 404 "not_found" ("Role '" ++ role ++ "' not found.")

/-- A user to be assigned does not exist. -/
def noAssignee (userId : String) : Failure :=
  refused 422 "invalid_assignment" ("Assigned user '" ++ userId ++ "' does not exist.")

/-- The id is taken. -/
def conflict (userId : String) : Failure :=
  refused 409 "conflict" ("User '" ++ userId ++ "' already exists.")

/-- The short name of the failure. -/
def kind : Failure → String
  | fault f => f.kind
  | directory f => f.kind
  | unreadableBody => "HTTPException"
  | invalidBody _ => "RequestValidationError"
  | unpresentable _ => "ValidationError"
  | report flaw => flaw.kind
  | unwritable => "PydanticSerializationError"

/-- The response to an error with a status.  A detail with parts is the error itself; any other
detail is its message. -/
def statusResponse (status : Nat) (detail : Value) : Response :=
  match detail with
  | .map _ => Response.json status (.map [(.text "error", detail)])
  | detail => Response.error status ("http_" ++ toString status) detail.plain

/-- The response to a failure, if there is one. -/
def response? : Failure → Option Response
  | fault (.status e) => some (statusResponse e.status e.detail)
  | fault (.unauthenticated _) =>
    some (Response.error 401 "not_authenticated" "Not authenticated.")
  | fault (.unauthorized _) => some (Response.error 403 "not_authorized" "Not authorized.")
  | unreadableBody => some (Response.bare 400 "There was an error parsing the body")
  | invalidBody found => some ⟨422, [], .objections found⟩
  | _ => none

end Failure

end AccessControl.Http
