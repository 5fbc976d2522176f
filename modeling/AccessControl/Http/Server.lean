import AccessControl.Http.Routing
import AccessControl.Http.Admission
import AccessControl.Directory.Seed
import AccessControl.Registry.Boot

/-!
# The server

The server is started with the directory of a seed file and with the registry of the application;
if either is unacceptable it does not start at all.

A request passes through four stages.

1. Its host has to be allowed.
2. A question about origins is answered at once.
3. The caller is resolved, the request is routed and handled.  A failure for which there is a
   response is answered with it.
4. The answer is logged on one line.  If there is none, the failure is logged instead, and the
   client gets a response that says nothing about it.

The registry is reached in two ways: decisions go through the engine, which has held it since the
start, while the resolver and the probe look for it where the start has published it.
-/

namespace AccessControl.Http

/-- A server that has been started. -/
structure Server where
  settings : Settings
  directory : Directory
  registry : Registry
  /-- The registry can be found by the resolver and by the probe. -/
  published : Bool := true

/-- What keeps a server from starting. -/
inductive StartFault
  | seed (f : DirectoryFault)
  | registry (f : Fault)

/-- What a request leaves behind beside the state of the server. -/
structure Exchange where
  response : Response
  /-- The kind of the failure for which there was no response. -/
  raised : Option String
  events : List Event

namespace Server

/-- A line of the server's own log. -/
def line (level : Level) (message : String) : Event :=
  .logged { logger := "gatekeeper.api", level := level, message := message }

/-! ## 1. Start and stop -/

/-- The directory to start with.  Without a seed file it is empty. -/
def startDirectory (settings : Settings) (location : String) (contents : Option (List UInt8)) :
    List Event × Except DirectoryFault Directory :=
  if settings.usersFile.isEmpty then
    ([line .warning "USERS_FILE not set -- user directory starts empty"], .ok Directory.empty)
  else Seed.load settings.usersFile location contents

/-- The registry of the application. -/
def startRegistry (logging : Bool) : Run Registry :=
  (Registry.fromOptions (.map (Rulebook.rootOptions logging))).bind fun r =>
    let done := r.initResources Rulebook.userFeature
    ⟨done.2.events, done.2.outcome.map fun _ => done.1⟩

/-- The line that announces the registry. -/
def registryLine (r : Registry) : Event :=
  line .info ("AuthZ initialized (roles=" ++ ",".intercalate r.roleNames
    ++ ", resources=" ++ ",".intercalate r.resourceNames
    ++ ", audit=" ++ (Value.bool r.logging).shown ++ ")")

/-- Starts a server; the seed file lies at a location and may have contents. -/
def start (settings : Settings) (location : String) (contents : Option (List UInt8)) :
    List Event × Except StartFault Server :=
  let seeded := startDirectory settings location contents
  let before := line .info "Gatekeeper API starting up" :: seeded.1
  match seeded.2 with
  | .error f => (before, .error (.seed f))
  | .ok directory =>
    let built := startRegistry settings.authzLogging
    match built.outcome with
    | .error f => (before ++ built.events, .error (.registry f))
    | .ok r => (before ++ built.events ++ [registryLine r], .ok ⟨settings, directory, r, true⟩)

/-- What is logged when the server stops. -/
def stopEvents : List Event :=
  [line .info "Gatekeeper API shutdown complete"]

/-! ## 2. Requests -/

/-- The registry where the start has published it. -/
def publishedRegistry (s : Server) : Option Registry :=
  if s.published then some s.registry else none

/-- Resolves the caller, and routes and handles the request. -/
def dispatch (s : Server) (i : Interpretation) (r : Request) : Handler Response := do
  let caller ← Caller.resolve s.settings (s.publishedRegistry.bind Registry.resolver) r
  match Endpoint.route r with
  | .error response => return response
  | .ok endpoint => endpoint.handle s.publishedRegistry ⟨i, s.registry, caller⟩ r

/-- Answers failures for which there is a response. -/
def answered (h : Handler Response) : Handler Response :=
  h.settle fun outcome =>
    match outcome with
    | .ok response => Handler.pure response
    | .error failure =>
      match failure.response? with
      | some response => Handler.pure response
      | none => Handler.fail failure

/-- All that is done about a request up to its response. -/
def respond (s : Server) (i : Interpretation) (r : Request) : Handler Response :=
  if !hostAllowed s.settings r then return wrongHost
  else if isPreflight r then return preflight s.settings r
  else do
    let response ← answered (s.dispatch i r)
    return response.forOrigin s.settings r

/-- The line that a response leaves in the log. -/
def responseLine (s : Server) (r : Request) (response : Response) : Event :=
  line .info (r.method ++ " " ++ r.addressPath ++ " " ++ toString response.status ++ " user="
    ++ (r.header? (Text.small s.settings.identityHeader)).getD "-")

/-- The line that a failure without a response leaves in the log. -/
def failureLine (r : Request) (failure : Failure) : Event :=
  .logged { logger := "gatekeeper.api", level := .error,
            message := "Unhandled exception on " ++ r.method ++ " " ++ r.addressPath,
            fault := some failure.kind }

/-- The response that says nothing about the failure. -/
def internalError : Response :=
  Response.error 500 "internal_error" "An unexpected error occurred."

/-- What is answered, and what has happened, once a request has run. -/
def conclude (s : Server) (r : Request) (result : Handler.Result Response) : Exchange :=
  match result.outcome with
  | .ok response => ⟨response, none, result.events ++ [s.responseLine r response]⟩
  | .error failure =>
    ⟨internalError, some failure.kind, result.events ++ [failureLine r failure]⟩

/-- Serves a request while no other request is being served. -/
def serve (s : Server) (i : Interpretation) (r : Request) : Server × Exchange :=
  let result := (s.respond i r).run s.directory
  ({ s with directory := result.directory }, s.conclude r result)

/-- Serves requests one after the other. -/
def serveAll (s : Server) (i : Interpretation) (requests : List Request) : Server :=
  requests.foldl (fun s r => (s.serve i r).1) s

/-! ## 3. Other connections -/

/-- How an attempt to open a socket ends; there are none to be opened. -/
inductive SocketReply
  | closed
  | refused (response : Response)

/-- Answers an attempt to open a socket. -/
def socket (s : Server) (r : Request) : SocketReply :=
  if hostAllowed s.settings r then .closed else .refused wrongHost

end Server

end AccessControl.Http
