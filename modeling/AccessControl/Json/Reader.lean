import AccessControl.Value.Equality
import AccessControl.Decimal.Read

/-!
# Reading JSON

A JSON text is read into a value.  Beside the numbers of the format, `NaN`, `Infinity` and
`-Infinity` are accepted; of several entries of an object with the same key the last one counts,
at the place of the first.

The first thing that does not fit is reported with its place, counted in characters.  Whole
numbers are limited to 4300 digits.  Lists and objects can be nested to any depth: a reader that
runs out of stack is not described.

## Halves of surrogate pairs

An escape can give a code that is only half of a surrogate pair.  A program whose texts consist of
codes keeps the half as it is: two different halves are different texts, and a text with one of
them cannot be encoded.  The texts of this library consist of characters, and half of a pair is no
character.  So it is read as the replacement character, and the reader notes that it is not `whole`
what has been read.  What a result says about the contents of a JSON text is meant for the texts
that are whole where it makes a difference, and is then stated for these.
-/

namespace AccessControl

/-- What is wrong with a JSON text. -/
inductive JsonComplaint
  | expectingValue
  | expectingName
  | expectingColon
  | expectingComma
  | extraData
  | unterminatedText
  | controlCharacter
  | badEscape
  | badUnicodeEscape
  | byteOrderMark
  /-- A whole number has too many digits. -/
  | tooManyDigits (count : Nat)
  deriving DecidableEq, Repr

namespace JsonComplaint

/-- The complaint in words. -/
def message : JsonComplaint → String
  | expectingValue => "Expecting value"
  | expectingName => "Expecting property name enclosed in double quotes"
  | expectingColon => "Expecting ':' delimiter"
  | expectingComma => "Expecting ',' delimiter"
  | extraData => "Extra data"
  | unterminatedText => "Unterminated string starting at"
  | controlCharacter => "Invalid control character at"
  | badEscape => "Invalid \\escape"
  | badUnicodeEscape => "Invalid \\uXXXX escape"
  | byteOrderMark => "Unexpected UTF-8 BOM (decode using utf-8-sig)"
  | tooManyDigits count =>
    "Exceeds the limit (4300 digits) for integer string conversion: value has "
      ++ toString count ++ " digits; use sys.set_int_max_str_digits() to increase the limit"

end JsonComplaint

/-- A complaint about a JSON text, with its place. -/
structure JsonFlaw where
  complaint : JsonComplaint
  place : Nat
  deriving DecidableEq, Repr

namespace JsonFlaw

/-- The line and the column of a place, both counted from one. -/
def lineColumn (line column : Nat) : Nat → List Char → Nat × Nat
  | 0, _ => (line, column)
  | _, [] => (line, column)
  | n + 1, c :: rest =>
    if c = '\n' then lineColumn (line + 1) 1 n rest else lineColumn line (column + 1) n rest

/-- The flaw in words, with its place in the text. -/
def message (f : JsonFlaw) (whole : String) : String :=
  match f.complaint with
  | .tooManyDigits count => (JsonComplaint.tooManyDigits count).message
  | complaint =>
    let at_ := lineColumn 1 1 f.place whole.toList
    -- a place beyond the end lies on the last line
    let beyond := f.place - whole.length
    complaint.message ++ ": line " ++ toString at_.1 ++ " column " ++ toString (at_.2 + beyond)
      ++ " (char " ++ toString f.place ++ ")"

end JsonFlaw

namespace Json

/-- What is left of the text, and how many characters came before it. -/
structure Cursor where
  rest : List Char
  place : Nat
  /-- No half of a surrogate pair has been replaced so far. -/
  whole : Bool

/-- A reading step: a result with what is left, or the flaw that ends the reading. -/
abbrev Read (α : Type) := Except JsonFlaw (α × Cursor)

/-- Blanks between the parts of a JSON text. -/
def isSpace (c : Char) : Bool :=
  c == ' ' || c == '\t' || c == '\n' || c == '\r'

/-- Skips characters as long as they satisfy `p`. -/
def skipList (p : Char → Bool) (place : Nat) (whole : Bool) : List Char → Cursor
  | [] => ⟨[], place, whole⟩
  | c :: rest => if p c then skipList p (place + 1) whole rest else ⟨c :: rest, place, whole⟩

/-- Skips blanks. -/
def Cursor.skip (c : Cursor) : Cursor :=
  skipList isSpace c.place c.whole c.rest

/-! ## 1. Texts -/

/-- What a hexadecimal digit is worth. -/
def hexValue? (c : Char) : Option Nat :=
  let n := c.toNat
  if 0x30 ≤ n ∧ n ≤ 0x39 then some (n - 0x30)
  else if 0x41 ≤ n ∧ n ≤ 0x46 then some (n - 0x37)
  else if 0x61 ≤ n ∧ n ≤ 0x66 then some (n - 0x57)
  else none

/-- The code of four hexadecimal digits. -/
def hexCode? (a b c d : Char) : Option Nat := do
  let a ← hexValue? a
  let b ← hexValue? b
  let c ← hexValue? c
  let d ← hexValue? d
  return ((a * 16 + b) * 16 + c) * 16 + d

/-- The first half of a surrogate pair. -/
def isHighHalf (n : Nat) : Bool := 0xD800 ≤ n && n ≤ 0xDBFF

/-- The second half of a surrogate pair. -/
def isLowHalf (n : Nat) : Bool := 0xDC00 ≤ n && n ≤ 0xDFFF

/-- One of the two halves of a surrogate pair. -/
def isHalf (n : Nat) : Bool := isHighHalf n || isLowHalf n

/-- What an escape stands for. -/
structure Escape where
  char : Char
  /-- How many characters after the backslash belong to the escape. -/
  used : Nat
  /-- The character has not been put in the place of half of a surrogate pair. -/
  whole : Bool

/-- The escape of a code on its own; half of a surrogate pair is replaced. -/
def Escape.ofCode (n : Nat) : Escape where
  char := if isHalf n then '\uFFFD' else Char.ofNat n
  used := 5
  whole := !isHalf n

/-- The character that a letter after a backslash stands for. -/
def escaped? : Char → Option Char
  | '"' => some '"'
  | '\\' => some '\\'
  | '/' => some '/'
  | 'b' => some '\x08'
  | 'f' => some '\x0c'
  | 'n' => some '\n'
  | 'r' => some '\r'
  | 't' => some '\t'
  | _ => none

/-- The character that four hexadecimal digits after `\u` stand for, together with a second
escape if the two are halves of a pair.  The text goes on after an escape, at least to its closing
quote. -/
def readCode (place : Nat) (a b c d : Char) (rest : List Char) : Except JsonFlaw Escape :=
  if rest.isEmpty then .error ⟨.badUnicodeEscape, place + 1⟩
  else match hexCode? a b c d with
    | none => .error ⟨.badUnicodeEscape, place + 1⟩
    | some high =>
      match rest with
      | '\\' :: 'u' :: e :: f :: g :: h :: _ :: _ =>
        if isHighHalf high then
          match hexCode? e f g h with
          | none => .error ⟨.badUnicodeEscape, place + 7⟩
          | some low =>
            if isLowHalf low then
              .ok ⟨Char.ofNat (0x10000 + (high - 0xD800) * 0x400 + (low - 0xDC00)), 11, true⟩
            else .ok (.ofCode high)
        else .ok (.ofCode high)
      | _ => .ok (.ofCode high)

/-- Reads an escape after its backslash; `start` is the place of the opening quote. -/
def readEscape (start place : Nat) : List Char → Except JsonFlaw Escape
  | [] => .error ⟨.unterminatedText, start⟩
  | 'u' :: a :: b :: c :: d :: rest => readCode place a b c d rest
  | 'u' :: _ => .error ⟨.badUnicodeEscape, place + 1⟩
  | c :: _ =>
    match escaped? c with
    | some e => .ok ⟨e, 1, true⟩
    | none => .error ⟨.badEscape, place⟩

/-- The rest of a text whose opening quote stands at `start`; the next `used` characters belong
to an escape that has been read already. -/
def readText (start : Nat) (acc : List Char) (place used : Nat) (whole : Bool) :
    List Char → Read String
  | [] => .error ⟨.unterminatedText, start⟩
  | c :: rest =>
    if 0 < used then readText start acc (place + 1) (used - 1) whole rest
    else if c = '"' then .ok (String.ofList acc.reverse, ⟨rest, place + 1, whole⟩)
    else if c = '\\' then
      match readEscape start place rest with
      | .ok e => readText start (e.char :: acc) (place + 1) e.used (whole && e.whole) rest
      | .error flaw => .error flaw
    else if c.toNat < 0x20 then .error ⟨.controlCharacter, place⟩
    else readText start (c :: acc) (place + 1) 0 whole rest

/-! ## 2. Numbers -/

/-- The characters of a number: whole part, fraction and exponent, each as far as it is there. -/
structure Numeral where
  negative : Bool
  whole : List Char
  fraction : List Char
  /-- The sign and the digits of the exponent. -/
  exponent : Option (Bool × List Char)

/-- An ASCII digit. -/
def isDigit (c : Char) : Bool := '0' ≤ c && c ≤ '9'

/-- The whole part: a zero, or digits that do not begin with one. -/
def wholePart : List Char → List Char
  | '0' :: _ => ['0']
  | cs => cs.takeWhile isDigit

/-- The fraction after the whole part, if a point and a digit follow. -/
def fractionPart : List Char → List Char
  | '.' :: cs => cs.takeWhile isDigit
  | _ => []

/-- The exponent, if one follows: its sign, whether the sign is written, and its digits. -/
def exponentPart : List Char → Option (Bool × Bool × List Char)
  | c :: rest =>
    if c == 'e' || c == 'E' then
      let signed := match rest with
        | s :: _ => s == '+' || s == '-'
        | [] => false
      let negative := rest.head? == some '-'
      let digits := (if signed then rest.drop 1 else rest).takeWhile isDigit
      if digits.isEmpty then none else some (negative, signed, digits)
    else none
  | [] => none

/-- The number that decimal digits are. -/
def digitsValue (ds : List Char) : Nat :=
  ds.foldl (fun n c => n * 10 + (c.toNat - 0x30)) 0

/-- The most digits of a whole number. -/
def mostDigits : Nat := 4300

/-- Reads a number. -/
def readNumber (c : Cursor) : Read Value :=
  let negative := c.rest.head? == some '-'
  let unsigned := if negative then c.rest.drop 1 else c.rest
  let whole := wholePart unsigned
  if whole.isEmpty then .error ⟨.expectingValue, c.place⟩
  else
    let afterWhole := unsigned.drop whole.length
    let fraction := fractionPart afterWhole
    let afterFraction :=
      if fraction.isEmpty then afterWhole else afterWhole.drop (fraction.length + 1)
    let exponent := exponentPart afterFraction
    let used (n : Nat) : Cursor :=
      ⟨c.rest.drop n, c.place + n, c.whole⟩
    let length := (if negative then 1 else 0) + whole.length
      + (if fraction.isEmpty then 0 else fraction.length + 1)
    if fraction.isEmpty && exponent.isNone then
      if mostDigits < whole.length then .error ⟨.tooManyDigits whole.length, c.place⟩
      else
        let n : Int := digitsValue whole
        .ok (.int (if negative then -n else n), used length)
    else
      let shift : Int := match exponent with
        | some (down, _, digits) => if down then -(digitsValue digits : Int) else digitsValue digits
        | none => 0
      let size := match exponent with
        | some (_, signed, digits) => 1 + (if signed then 1 else 0) + digits.length
        | none => 0
      let x := Decimal.nearestFloat (digitsValue (whole ++ fraction)) (shift - fraction.length)
      .ok (.float (if negative then -x else x), used (length + size))

/-- Words that stand for a value. -/
def words : List (List Char × Value) :=
  [("null".toList, .null), ("true".toList, .bool true), ("false".toList, .bool false),
    ("NaN".toList, .float (0.0 / 0.0)), ("Infinity".toList, .float (1.0 / 0.0)),
    ("-Infinity".toList, .float (-1.0 / 0.0))]

/-- Reads a word or a number. -/
def readScalar (c : Cursor) : Read Value :=
  match words.find? fun w => w.1.isPrefixOf c.rest with
  | some (w, v) => .ok (v, ⟨c.rest.drop w.length, c.place + w.length, c.whole⟩)
  | none => readNumber c

/-! ## 3. Values -/

/-- Reads the key of an entry, up to the value. -/
def readKey (c : Cursor) : Read String :=
  match c.rest with
  | '"' :: rest =>
    match readText c.place [] (c.place + 1) 0 c.whole rest with
    | .error flaw => .error flaw
    | .ok (key, after) =>
      let colon := after.skip
      match colon.rest with
      | ':' :: rest => .ok (key, Cursor.skip ⟨rest, colon.place + 1, colon.whole⟩)
      | _ => .error ⟨.expectingColon, colon.place⟩
  | _ => .error ⟨.expectingName, c.place⟩

mutual

/-- Reads a value; `fuel` bounds the depth of the calls. -/
def readValue (fuel : Nat) (c : Cursor) : Read Value :=
  match fuel with
  | 0 => .error ⟨.expectingValue, c.place⟩
  | fuel + 1 =>
    match c.rest with
    | [] => .error ⟨.expectingValue, c.place⟩
    | '"' :: rest =>
      (readText c.place [] (c.place + 1) 0 c.whole rest).map fun r => (.text r.1, r.2)
    | '[' :: rest =>
      let next := Cursor.skip ⟨rest, c.place + 1, c.whole⟩
      match next.rest with
      | ']' :: after => .ok (.list [], ⟨after, next.place + 1, next.whole⟩)
      | _ => readItems fuel [] next
    | '\x7b' :: rest =>
      let next := Cursor.skip ⟨rest, c.place + 1, c.whole⟩
      match next.rest with
      | '\x7d' :: after => .ok (.map [], ⟨after, next.place + 1, next.whole⟩)
      | _ => readEntries fuel [] next
    | _ => readScalar c

/-- Reads the elements of a list up to its end. -/
def readItems (fuel : Nat) (acc : List Value) (c : Cursor) : Read Value :=
  match fuel with
  | 0 => .error ⟨.expectingValue, c.place⟩
  | fuel + 1 =>
    match readValue fuel c with
    | .error flaw => .error flaw
    | .ok (v, after) =>
      let next := after.skip
      match next.rest with
      | ']' :: rest => .ok (.list (v :: acc).reverse, ⟨rest, next.place + 1, next.whole⟩)
      | ',' :: rest => readItems fuel (v :: acc) (Cursor.skip ⟨rest, next.place + 1, next.whole⟩)
      | _ => .error ⟨.expectingComma, next.place⟩

/-- Reads the entries of an object up to its end. -/
def readEntries (fuel : Nat) (acc : List (Value × Value)) (c : Cursor) : Read Value :=
  match fuel with
  | 0 => .error ⟨.expectingValue, c.place⟩
  | fuel + 1 =>
    match readKey c with
    | .error flaw => .error flaw
    | .ok (key, at_) =>
      match readValue fuel at_ with
      | .error flaw => .error flaw
      | .ok (v, after) =>
        let next := after.skip
        let entries := Value.put (.text key) v acc
        match next.rest with
        | '\x7d' :: rest => .ok (.map entries, ⟨rest, next.place + 1, next.whole⟩)
        | ',' :: rest =>
          readEntries fuel entries (Cursor.skip ⟨rest, next.place + 1, next.whole⟩)
        | _ => .error ⟨.expectingComma, next.place⟩

end

/-- Reads the characters of a JSON text, up to their end, and notes whether no half of a surrogate
pair has been replaced. -/
def readNoting (cs : List Char) : Except JsonFlaw (Value × Bool) := do
  let (v, after) ← readValue (2 * cs.length + 4) (Cursor.skip ⟨cs, 0, true⟩)
  let next := after.skip
  if next.rest.isEmpty then return (v, next.whole) else throw ⟨.extraData, next.place⟩

/-- Reads the characters of a JSON text. -/
def readChars (cs : List Char) : Except JsonFlaw Value :=
  (readNoting cs).map Prod.fst

/-- Reads a JSON text; it must not begin with a byte order mark. -/
def read (s : String) : Except JsonFlaw Value :=
  if s.toList.head? == some '\uFEFF' then .error ⟨.byteOrderMark, 0⟩ else readChars s.toList

/-- If the text is JSON, no half of a surrogate pair is replaced in reading it. -/
def isWhole (s : String) : Bool :=
  match readNoting s.toList with
  | .ok (_, whole) => whole
  | .error _ => true

end Json

end AccessControl
