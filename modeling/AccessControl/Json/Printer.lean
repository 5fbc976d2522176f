import AccessControl.Value.Text

/-!
# Writing JSON

Values are written in one of two layouts.

* *Compact*: without blanks, and with all characters beyond ASCII as they are.
* *Indented*: every element and every entry on a line of its own, two blanks deeper than its
  collection, and every character outside printable ASCII by its code.

A member of an enumeration of texts is written as its text, a tuple as a list.  A value that JSON
does not know is written as its text.  A key that is no text is written as one if it is a number,
a truth value or nothing; other keys cannot be written.
-/

namespace AccessControl.Json

/-- The four hexadecimal digits of a code after `\u`. -/
def unicodeEscape (n : Nat) : List Char :=
  '\\' :: 'u' :: Text.hexDigits 4 n

/-- How a character beyond ASCII is written by its code. -/
def codeEscape (n : Nat) : List Char :=
  if n < 0x10000 then unicodeEscape n
  else
    let m := n - 0x10000
    unicodeEscape (0xD800 + m / 0x400) ++ unicodeEscape (0xDC00 + m % 0x400)

/-- How a character is written inside a text. -/
def escapeChar (ascii : Bool) (c : Char) : List Char :=
  match c with
  | '"' => ['\\', '"']
  | '\\' => ['\\', '\\']
  | '\n' => ['\\', 'n']
  | '\r' => ['\\', 'r']
  | '\t' => ['\\', 't']
  | '\x0c' => ['\\', 'f']
  | '\x08' => ['\\', 'b']
  | c =>
    if c.toNat < 0x20 then unicodeEscape c.toNat
    else if ascii && 0x7F ≤ c.toNat then codeEscape c.toNat
    else [c]

/-- A text between quotes. -/
def quote (ascii : Bool) (s : String) : String :=
  String.ofList ('"' :: s.toList.flatMap (escapeChar ascii) ++ ['"'])

/-- A float; what is no number is written by name. -/
def floatText (x : Float) : String :=
  match FloatValue.ofFloat x with
  | .undefined => "NaN"
  | .infinite negative => if negative then "-Infinity" else "Infinity"
  | .finite _ => Decimal.text x

/-- The text that a key is written as. -/
def keyText? : Value → Option String
  | .null => some "null"
  | .bool b => some (if b then "true" else "false")
  | .int n => some (toString n)
  | .float x => some (floatText x)
  | v => v.text?

/-- How the parts of a collection are laid out: between brackets, at a depth. -/
def bracketed (indented : Bool) (depth : Nat) (left right : String) (parts : List String) :
    String :=
  if parts.isEmpty then left ++ right
  else if indented then
    let line (n : Nat) := "\n" ++ String.ofList (List.replicate (2 * n) ' ')
    left ++ line (depth + 1) ++ (("," ++ line (depth + 1)).intercalate parts) ++ line depth ++ right
  else left ++ ",".intercalate parts ++ right

mutual

/-- Writes a value at a depth; a value with a key that cannot be written gives the kind of that
key. -/
def write (indented : Bool) (depth : Nat) : Value → Except String String
  | .null => .ok "null"
  | .bool b => .ok (if b then "true" else "false")
  | .int n => .ok (toString n)
  | .float x => .ok (floatText x)
  | .text s => .ok (quote indented s)
  | .member _ _ (.text s) => .ok (quote indented s)
  | .list items => (writeItems indented (depth + 1) items).map (bracketed indented depth "[" "]")
  | .tuple items => (writeItems indented (depth + 1) items).map (bracketed indented depth "[" "]")
  | .map es =>
    (writeEntries indented (depth + 1) es).map (bracketed indented depth "\x7b" "\x7d")
  | v => .ok (quote indented v.plain)
termination_by structural v => v

/-- Writes the elements of a collection. -/
def writeItems (indented : Bool) (depth : Nat) : List Value → Except String (List String)
  | [] => .ok []
  | v :: rest =>
    match write indented depth v with
    | .error kind => .error kind
    | .ok s => (writeItems indented depth rest).map (s :: ·)
termination_by structural vs => vs

/-- Writes the entries of a map. -/
def writeEntries (indented : Bool) (depth : Nat) :
    List (Value × Value) → Except String (List String)
  | [] => .ok []
  | (k, v) :: rest =>
    match keyText? k with
    | none => .error k.typeName
    | some key =>
      match write indented depth v with
      | .error kind => .error kind
      | .ok s =>
        (writeEntries indented depth rest).map
          ((quote indented key ++ (if indented then ": " else ":") ++ s) :: ·)
termination_by structural es => es

end

/-- A value in the compact layout; what cannot be written is left out. -/
def compact (v : Value) : String :=
  match write false 0 v with
  | .ok s => s
  | .error _ => ""

/-- A value in the indented layout, or the kind of a key that cannot be written. -/
def indented (v : Value) : Except String String :=
  write true 0 v

end AccessControl.Json
