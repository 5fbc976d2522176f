import AccessControl.Http.Message
import AccessControl.Settings.Basic

/-!
# Which requests are admitted

Before a request is looked at, the host that it names has to be allowed.  An entry of the list of
hosts that begins with `*` allows every host that ends with the rest of it.

A page of another origin may read the responses if its origin is on the list.  A browser asks
before it sends such a request: an `OPTIONS` request that names its origin and the intended method
is answered here, with everything that is allowed and with what speaks against it.
-/

namespace AccessControl.Http

/-! ## 1. Hosts -/

/-- The name of the host, up to a colon, in small letters. -/
def bareHost (host : String) : String :=
  String.ofList ((Text.small host).toList.takeWhile (· != ':'))

/-- An entry of the list of hosts allows a host. -/
def hostMatches (entry host : String) : Bool :=
  host == entry || (entry.startsWith "*" && host.endsWith (String.ofList (entry.toList.drop 1)))

/-- The host of the request is allowed. -/
def hostAllowed (s : Settings) (r : Request) : Bool :=
  s.allowedHosts.any fun entry => hostMatches entry (bareHost r.host)

/-- The response to a request for another host. -/
def wrongHost : Response := Response.text 400 "Invalid host header"

/-! ## 2. Origins -/

/-- The methods that pages of other origins may use. -/
def allowedMethods : List String := ["GET", "POST", "PATCH", "DELETE"]

/-- The headers that pages of other origins may send, in order. -/
def allowedHeaders (s : Settings) : List String :=
  let names := ["Accept", "Accept-Language", "Content-Language", "Content-Type", s.identityHeader]
  (names.eraseDups).mergeSort fun a b => decide (a ≤ b)

/-- The request asks whether another request would be allowed. -/
def isPreflight (r : Request) : Bool :=
  r.method == "OPTIONS" && (r.header? "origin").isSome
    && (r.header? "access-control-request-method").isSome

/-- The origin of the request, if it may read responses. -/
def allowedOrigin? (s : Settings) (r : Request) : Option String :=
  (r.header? "origin").filter s.corsOrigins.contains

/-- The header that lets the page of an allowed origin read the response. -/
def originHeaders (s : Settings) (r : Request) : List (String × String) :=
  ((allowedOrigin? s r).map fun origin => ("access-control-allow-origin", origin)).toList

/-- Every header that the request intends to send is allowed. -/
def headersAllowed (s : Settings) (intended : String) : Bool :=
  let allowed := (allowedHeaders s).map Text.small
  (splitAt ',' (Text.small intended).toList).all fun part =>
    allowed.contains (Text.trimBy Text.isBlank (String.ofList part))

/-- What speaks against the request that is asked about. -/
def objectionsTo (s : Settings) (r : Request) : List String :=
  (if (allowedOrigin? s r).isSome then [] else ["origin"])
    ++ (if ((r.header? "access-control-request-method").map allowedMethods.contains).getD false
        then [] else ["method"])
    ++ (if ((r.header? "access-control-request-headers").map (headersAllowed s)).getD true
        then [] else ["headers"])
    ++ (if (r.header? "access-control-request-private-network").isSome
        then ["private-network"] else [])

/-- The answer to the question whether a request would be allowed. -/
def preflight (s : Settings) (r : Request) : Response :=
  let against := objectionsTo s r
  let headers :=
    [("access-control-allow-headers", ", ".intercalate (allowedHeaders s)),
      ("access-control-allow-methods", ", ".intercalate allowedMethods),
      ("access-control-max-age", "3600"),
      ("vary", "Origin, Access-Control-Request-Method, Access-Control-Request-Headers, "
        ++ "Access-Control-Request-Private-Network")]
  let answer :=
    if against.isEmpty then Response.text 200 "OK"
    else Response.text 400 ("Disallowed CORS " ++ ", ".intercalate against)
  (answer.withHeaders (originHeaders s r)).withHeaders headers

/-- The response to a request that is not such a question: it depends on the origin. -/
def Response.forOrigin (response : Response) (s : Settings) (r : Request) : Response :=
  (response.withHeaders (originHeaders s r)).withHeaders [("vary", "Origin")]

end AccessControl.Http
