import AccessControl.Json.Reader
import AccessControl.Text.Utf8

/-!
# Addresses

Three things are done with the address of a request.

* The *query* is read into pairs: they are separated by `&`, and name and value by the first `=`.
  A plus sign stands for a blank, and a percent sign with two hexadecimal digits for a byte; the
  bytes are read as UTF-8.
* The *path of the address* is what the log shows.  It is found after the address has been put
  together from host, path and query, so that a `?` or a `#` in the path cuts it short.
* A *location* to which the client is sent is written in ASCII.
-/

namespace AccessControl.Http

/-! ## 1. Queries -/

/-- What a character of a query is, or a percent sign with two digits: a byte, or a character
that is no ASCII and stands for itself. -/
def queryTokens : List Char → List (UInt8 ⊕ Char)
  | [] => []
  | '%' :: a :: b :: rest =>
    match Json.hexValue? a, Json.hexValue? b with
    | some x, some y => .inl (UInt8.ofNat (16 * x + y)) :: queryTokens rest
    | _, _ => .inl 0x25 :: queryTokens (a :: b :: rest)
  | c :: rest =>
    (if c.toNat < 0x80 then .inl (UInt8.ofNat c.toNat) else .inr c) :: queryTokens rest

/-- The text of bytes and characters; a character ends the bytes before it. -/
def tokenText (state : Text.Utf8State) : List (UInt8 ⊕ Char) → List Char
  | [] => Text.endChar state
  | .inl b :: rest =>
    let step := Text.continueChar state b
    step.1 ++ tokenText step.2 rest
  | .inr c :: rest => Text.endChar state ++ c :: tokenText .between rest

/-- A name or a value of a query in plain text. -/
def queryText (cs : List Char) : String :=
  let spaced := cs.map fun c => if c = '+' then ' ' else c
  String.ofList (tokenText .between (queryTokens spaced))

/-- The parts of a text between separators. -/
def splitAt (separator : Char) : List Char → List (List Char)
  | [] => [[]]
  | c :: rest =>
    if c = separator then [] :: splitAt separator rest
    else match splitAt separator rest with
      | [] => [[c]]
      | part :: parts => (c :: part) :: parts

/-- A pair of a query. -/
def queryPair (cs : List Char) : String × String :=
  (queryText (cs.takeWhile (· != '=')), queryText ((cs.dropWhile (· != '=')).drop 1))

/-- The pairs of a query.  The query comes as bytes; a byte that is no ASCII stands for the
character with its number. -/
def queryPairs (query : String) : List (String × String) :=
  let cs := query.toUTF8.toList.map fun b => Char.ofNat b.toNat
  ((splitAt '&' cs).filter fun part => !part.isEmpty).map queryPair

/-- The values under a name, in order. -/
def queryValues (name query : String) : List String :=
  ((queryPairs query).filter fun p => p.1 == name).map Prod.snd

/-! ## 2. Paths and locations -/

/-- The address of a request, without the scheme. -/
def address (host path query : String) : String :=
  host ++ path ++ (if query.isEmpty then "" else "?" ++ query)

/-- The path of an address: it begins with the first `/` and ends before the first `?` or `#`.
Line ends and tabs do not count. -/
def addressPath (address : String) : String :=
  let visible := address.toList.filter fun c => !(c == '\t' || c == '\n' || c == '\r')
  let afterHost := visible.dropWhile fun c => !(c == '/' || c == '?' || c == '#')
  String.ofList (afterHost.takeWhile fun c => !(c == '?' || c == '#'))

/-- A byte that stands for itself in a location. -/
def isPlainByte (b : UInt8) : Bool :=
  let c := Char.ofNat b.toNat
  b.toNat < 0x80 && (c.isAlphanum || "_.-~:/%#?=@[]!$&'()*+,;".toList.contains c)

/-- The hexadecimal digit worth `n`, as a capital. -/
def capitalDigit (n : Nat) : Char :=
  if n < 10 then Char.ofNat (0x30 + n) else Char.ofNat (0x37 + n)

/-- A byte of a location: itself, or its percent form. -/
def locationByte (b : UInt8) : List Char :=
  if isPlainByte b then [Char.ofNat b.toNat]
  else ['%', capitalDigit (b.toNat / 16), capitalDigit (b.toNat % 16)]

/-- An address as a location. -/
def location (address : String) : String :=
  String.ofList (("http://" ++ address).toUTF8.toList.flatMap locationByte)

end AccessControl.Http
