import AccessControl.Text.Blank
import AccessControl.Text.Lines
import AccessControl.Table

/-!
# Settings files

A settings file has one binding a line, `name=value`.

* Blank lines and lines that begin with `#` are skipped, and so is the word `export`.
* A name may stand between single quotes; otherwise it ends at a blank, at `=` or at `#`.
* A value between quotes may go over several lines.  Between single quotes `\\` and `\'` stand
  for the second character; between double quotes the escapes for blanks and for the bell are
  known as well.
* A value without quotes goes to the end of the line, less a comment that follows a blank, and
  less blanks at its end.
* A name without `=` has no value.

A line that has no such form is skipped.  Names keep the order of their first bindings.  In a
value `${name}` stands for an earlier value, or for a variable of the environment;
`${name:-text}` stands for the text if there is neither.
-/

namespace AccessControl.Dotenv

/-- A blank that does not end the line. -/
def isGap (c : Char) : Bool :=
  Text.isBlank c && c != '\n'

/-! ## 1. Quotes -/

/-- Reads up to the closing quote: the characters before it, and what follows.  A quote after a
backslash closes only if no other one does; `last` is the reading that ends at such a quote. -/
def readQuoted (q : Char) (acc : List Char) (last : Option (List Char × List Char))
    (escaped : Bool) : List Char → Option (List Char × List Char)
  | [] => last
  | c :: rest =>
    if c = q then
      if escaped then readQuoted q (c :: acc) (some (acc.reverse, rest)) false rest
      else some (acc.reverse, rest)
    else readQuoted q (c :: acc) last (c == '\\') rest

/-- The character that a letter after a backslash stands for. -/
def escapeOf? (q c : Char) : Option Char :=
  if c = '\\' || c = '\'' then some c
  else if q = '"' then
    match c with
    | '"' => some '"'
    | 'a' => some '\x07'
    | 'b' => some '\x08'
    | 'f' => some '\x0c'
    | 'n' => some '\n'
    | 'r' => some '\r'
    | 't' => some '\t'
    | 'v' => some '\x0b'
    | _ => none
  else none

/-- Replaces the escapes of a value between quotes `q`; other backslashes stay. -/
def unescape (q : Char) : List Char → List Char
  | [] => []
  | '\\' :: c :: rest =>
    match escapeOf? q c with
    | some e => e :: unescape q rest
    | none => '\\' :: unescape q (c :: rest)
  | c :: rest => c :: unescape q rest

/-! ## 2. Lines -/

/-- Cuts a comment off: it begins with blanks and `#`. -/
def cutComment : List Char → List Char
  | [] => []
  | c :: rest =>
    if Text.isBlank c && (rest.dropWhile Text.isBlank).head? == some '#' then []
    else c :: cutComment rest

/-- A value without quotes. -/
def bareValue (line : List Char) : List Char :=
  ((cutComment line).reverse.dropWhile Text.isBlank).reverse

/-- A binding as it is written; a line may bind nothing. -/
structure Binding where
  name : Option String
  value : Option String

/-- What is left of the text when the line holds no more than a comment. -/
def endOfLine (cs : List Char) : Option (List Char) :=
  let cs := cs.dropWhile isGap
  let cs := if cs.head? == some '#' then cs.dropWhile (· != '\n') else cs
  match cs with
  | [] => some []
  | c :: rest => if c = '\n' then some rest else none

/-- What is left after the rest of the line. -/
def skipLine (cs : List Char) : List Char :=
  (cs.dropWhile (· != '\n')).drop 1

/-- Drops the word `export` with the blanks after it. -/
def dropExport (cs : List Char) : List Char :=
  let word := "export".toList
  let after := cs.drop word.length
  match after with
  | c :: _ => if word.isPrefixOf cs && isGap c then after.dropWhile isGap else cs
  | [] => cs

/-- Reads the name of a binding: nothing for a comment, or the flaw, with what is left. -/
def readName : List Char → Except (List Char) (Option String × List Char)
  | '#' :: rest => .ok (none, '#' :: rest)
  | '\'' :: rest =>
    let name := rest.takeWhile (· != '\'')
    match rest.drop name.length with
    | _ :: after =>
      if name.isEmpty then .error ('\'' :: rest) else .ok (some (String.ofList name), after)
    | [] => .error ('\'' :: rest)
  | cs =>
    let name := cs.takeWhile fun c => !(c == '=' || c == '#' || Text.isBlank c)
    if name.isEmpty then .error cs else .ok (some (String.ofList name), cs.drop name.length)

/-- Reads a value, with what is left. -/
def readValue (cs : List Char) : Except (List Char) (String × List Char) :=
  match cs with
  | [] => .ok ("", [])
  | c :: rest =>
    if c = '\n' then .ok ("", cs)
    else if c = '\'' || c = '"' then
      match readQuoted c [] none false rest with
      | some (inside, after) => .ok (String.ofList (unescape c inside), after)
      | none => .error cs
    else
      let line := cs.takeWhile (· != '\n')
      .ok (String.ofList (bareValue line), cs.drop line.length)

/-- Reads the value of a binding, if an equals sign announces one, with what is left. -/
def readAssigned : List Char → Except (List Char) (Option String × List Char)
  | '=' :: after => (readValue (after.dropWhile isGap)).map fun v => (some v.1, v.2)
  | rest => .ok (none, rest)

/-- Reads a binding from a text that does not begin with a blank, with what is left. -/
def readBinding (cs : List Char) : Binding × List Char :=
  let skipped (rest : List Char) : Binding × List Char := (⟨none, none⟩, skipLine rest)
  match readName (dropExport cs) with
  | .error rest => skipped rest
  | .ok (name, rest) =>
    match readAssigned (rest.dropWhile isGap) with
    | .error rest => skipped rest
    | .ok (value, rest) =>
      match endOfLine rest with
      | some after => (⟨name, value⟩, after)
      | none => skipped rest

/-- Reads all bindings; every binding takes at least one character. -/
def readBindings : Nat → List Char → List Binding
  | 0, _ => []
  | fuel + 1, cs =>
    match cs.dropWhile Text.isBlank with
    | [] => []
    | cs =>
      let read := readBinding cs
      read.1 :: readBindings fuel read.2

/-! ## 3. References -/

/-- The name and the default of a reference, the characters between its braces. -/
def splitReference (inside : List Char) : Option (String × String) :=
  let name := inside.takeWhile (· != ':')
  match inside.drop name.length with
  | [] => some (String.ofList name, "")
  | ':' :: '-' :: default => some (String.ofList name, String.ofList default)
  | _ => none

/-- Replaces the references in a value.  While `used` is positive the characters belong to a
reference that has been replaced. -/
def expand (lookup : String → Option String) (used : Nat) : List Char → List Char
  | [] => []
  | c :: rest =>
    if 0 < used then expand lookup (used - 1) rest
    else if c = '$' then
      match rest with
      | '\x7b' :: after =>
        let inside := after.takeWhile (· != '\x7d')
        match after.drop inside.length, splitReference inside with
        | _ :: _, some (name, default) =>
          ((lookup name).getD default).toList ++ expand lookup (inside.length + 2) rest
        | _, _ => c :: expand lookup 0 rest
      | _ => c :: expand lookup 0 rest
    else c :: expand lookup 0 rest

/-- The values of all names, with references replaced in the order of the lines.  A name keeps the
place of its first binding. -/
def resolve (env : List (String × String)) (acc : List (String × Option String)) :
    List (String × Option String) → List (String × Option String)
  | [] => acc
  | (name, none) :: rest => resolve env (assign name none acc) rest
  | (name, some value) :: rest =>
    let lookup (key : String) : Option String :=
      match acc.lookup key with
      | some v => some (v.getD "")
      | none => env.lookup key
    let text := String.ofList (expand lookup 0 value.toList)
    resolve env (assign name (some text) acc) rest

/-- Names and values of a settings file.  A later binding of a name replaces an earlier one. -/
def read (env : List (String × String)) (text : String) : List (String × Option String) :=
  let cs := Text.plainLines text.toList
  let bindings := readBindings (cs.length + 1) cs
  resolve env [] (bindings.filterMap fun b => b.name.map fun n => (n, b.value))

/-- The names to which a settings file refers. -/
def references (text : String) : List String :=
  ((text.splitOn "$\x7b").drop 1).map fun inside =>
    String.ofList (inside.toList.takeWhile fun c => !(c == ':' || c == '\x7d'))

end AccessControl.Dotenv
