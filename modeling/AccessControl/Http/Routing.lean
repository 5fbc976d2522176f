import AccessControl.Http.UserRoutes
import AccessControl.Http.RegistryRoutes

/-!
# Routes

A path leads to the endpoints of its form, one for each method.

* `/api/v1/users`, `/api/v1/users/me`, `/api/v1/users/ID`
* `/api/v1/authz/roles`, `/api/v1/authz/roles/ROLE`, `/api/v1/authz/resources`, `/api/v1/authz/me`
* `/api/v1/authz/permissions/RESOURCE/ACTION`, `/api/v1/authz/relationships/RESOURCE/NAME`
* `/api/v1/health`

A name in a path is any text without a slash that is not empty.  The fixed form comes first, so
that `me` is never an id for reading, while it is one for changing and removing.

A path that leads nowhere is tried with its last slashes taken away, or with one more; if that
path leads somewhere the client is sent there.
-/

namespace AccessControl.Http

/-- What a request can be for. -/
inductive Endpoint
  | ownRecord
  | listUsers
  | createUser
  | readUser (userId : String)
  | changeUser (userId : String)
  | removeUser (userId : String)
  | listRoles
  | showRole (role : String)
  | listResources
  | ownAccess
  | tryPermission (resource action : String)
  | tryRelationship (resource relationship : String)
  | health
  deriving DecidableEq, Repr

namespace Endpoint

/-- The endpoint takes a body. -/
def takesBody : Endpoint → Bool
  | createUser => true
  | changeUser _ => true
  | _ => false

/-! ## 1. From paths to endpoints -/

/-- The last part of a path is this word; a line end may follow. -/
def endsIn (word part : String) : Bool :=
  part == word || part == word ++ "\n"

/-- The endpoints, if a condition holds. -/
def on (condition : Bool) (endpoints : List (String × Endpoint)) : List (String × Endpoint) :=
  if condition then endpoints else []

/-- The endpoints to which the parts of a path lead, with their methods, in order. -/
def ofParts : List String → List (String × Endpoint)
  | ["users"] => [("GET", listUsers), ("POST", createUser)]
  | ["users\n"] => [("GET", listUsers), ("POST", createUser)]
  | ["health"] => [("GET", health)]
  | ["health\n"] => [("GET", health)]
  | ["users", userId] =>
    on (endsIn "me" userId) [("GET", ownRecord)]
      ++ on (!userId.isEmpty)
        [("GET", readUser userId), ("PATCH", changeUser userId), ("DELETE", removeUser userId)]
  | ["authz", part] =>
    on (endsIn "roles" part) [("GET", listRoles)]
      ++ on (endsIn "resources" part) [("GET", listResources)]
      ++ on (endsIn "me" part) [("GET", ownAccess)]
  | ["authz", "roles", role] => on (!role.isEmpty) [("GET", showRole role)]
  | ["authz", "permissions", resource, action] =>
    on (!resource.isEmpty && !action.isEmpty) [("GET", tryPermission resource action)]
  | ["authz", "relationships", resource, held] =>
    on (!resource.isEmpty && !held.isEmpty) [("GET", tryRelationship resource held)]
  | _ => []

/-- The endpoints to which a path leads, with their methods, in order. -/
def ofPath (path : String) : List (String × Endpoint) :=
  match (splitAt '/' path.toList).map String.ofList with
  | "" :: "api" :: "v1" :: parts => ofParts parts
  | _ => []

/-! ## 2. Routing -/

/-- The path without the slashes at its end, or with one if there are none. -/
def otherForm (path : String) : String :=
  if path.endsWith "/" then
    String.ofList (path.toList.reverse.dropWhile (· == '/')).reverse
  else path ++ "/"

/-- The endpoint for a request, or the response to a request for which there is none. -/
def route (r : Request) : Except Response Endpoint :=
  match ofPath r.path with
  | [] =>
    let other := otherForm r.path
    if r.path != "/" && !(ofPath other).isEmpty then
      .error ⟨307, [("location", location (address r.host other r.query))], .empty⟩
    else .error (Response.bare 404 "Not Found")
  | (method, first) :: rest =>
    match ((method, first) :: rest).lookup r.method with
    | some endpoint => .ok endpoint
    | none =>
      .error ((Response.bare 405 "Method Not Allowed").withHeaders [("allow", method)])

/-! ## 3. Handling -/

/-- The version of the interface. -/
def version : String := "0.1.0"

/-- Whether decisions can be made: the registry is there, and users have a rulebook. -/
def ready (published : Option Registry) : Bool :=
  (published.bind fun r => r.metadata? Rulebook.userResource).isSome

/-- The state of the server, as probes see it. -/
def healthResponse (published : Option Registry) : Response :=
  let state := if ready published then "ok" else "error"
  Response.json 200 (.map [(.text "status", .text "healthy"), (.text "version", .text version),
    (.text "components", .map [(.text "app", .text "ok"), (.text "authz", .text state)])])

/-- Handles a request at an endpoint, once its body has been read. -/
def handleWith (published : Option Registry) (a : Access) (r : Request) (body : Option Value) :
    Endpoint → Handler Response
  | ownRecord => UserRoutes.me a
  | listUsers => UserRoutes.list a
  | createUser => UserRoutes.create a body
  | readUser userId => UserRoutes.read a userId
  | changeUser userId => UserRoutes.change a userId body
  | removeUser userId => UserRoutes.remove a userId
  | listRoles => RegistryRoutes.roles a
  | showRole role => RegistryRoutes.role a role
  | listResources => RegistryRoutes.resources a
  | ownAccess => RegistryRoutes.me a
  | tryPermission resource action =>
    RegistryRoutes.permission a resource action (queryValues "access_level" r.query)
  | tryRelationship resource held => RegistryRoutes.relationship a resource held
  | health => return healthResponse published

/-- Handles a request at an endpoint.  A body that cannot be read ends the request before
anything is decided. -/
def handle (published : Option Registry) (a : Access) (r : Request) (e : Endpoint) :
    Handler Response :=
  if e.takesBody then
    match r.readBody with
    | .ok body => e.handleWith published a r body
    | .error failure => Handler.fail failure
  else e.handleWith published a r none

end Endpoint

end AccessControl.Http
