import AccessControl.Text.Printable

/-!
# Quoted text

A text inside a message is written between quotes, so that its ends and its unprintable
characters can be seen.

* The quote is `'`, unless the text holds a `'` and no `"`; then it is `"`.
* The quote in use and the backslash are preceded by a backslash.
* Tab, line feed and carriage return are written `\t`, `\n` and `\r`; every other character
  without a glyph is written as `\x`, `\u` or `\U` with two, four or eight hexadecimal digits,
  whichever is the shortest that can hold its code.

A string of bytes is written in the same way after a `b`, with `\x` for every byte that is not
printable ASCII.
-/

namespace AccessControl.Text

/-- The hexadecimal digit worth `n`, in small letters. -/
def hexDigit (n : Nat) : Char :=
  if n < 10 then Char.ofNat (0x30 + n) else Char.ofNat (0x57 + n)

/-- The last `width` hexadecimal digits of `n`. -/
def hexDigits : Nat → Nat → List Char
  | 0, _ => []
  | width + 1, n => hexDigits width (n / 16) ++ [hexDigit (n % 16)]

/-- A character that has no glyph, by its code. -/
def escapeCode (n : Nat) : List Char :=
  if n < 0x100 then '\\' :: 'x' :: hexDigits 2 n
  else if n < 0x10000 then '\\' :: 'u' :: hexDigits 4 n
  else '\\' :: 'U' :: hexDigits 8 n

/-- How a character is written between two quotes `q`. -/
def quoteChar (q c : Char) : List Char :=
  if c = q ∨ c = '\\' then ['\\', c]
  else if c = '\t' then ['\\', 't']
  else if c = '\n' then ['\\', 'n']
  else if c = '\r' then ['\\', 'r']
  else if isPrintable c then [c]
  else escapeCode c.toNat

/-- The quote that needs no backslash in the text, if one of the two does not occur in it. -/
def chooseQuote (cs : List Char) : Char :=
  if cs.contains '\'' && !cs.contains '"' then '"' else '\''

/-- The text between quotes. -/
def quoted (s : String) : String :=
  let q := chooseQuote s.toList
  String.ofList (q :: s.toList.flatMap (quoteChar q) ++ [q])

/-- How a byte is written between two quotes `q`. -/
def quoteByte (q : Char) (b : UInt8) : List Char :=
  if b.toNat < 0x7F then quoteChar q (Char.ofNat b.toNat) else escapeCode b.toNat

/-- The bytes between quotes, after a `b`. -/
def quotedBytes (bs : List UInt8) : String :=
  let q := chooseQuote (bs.map fun b => Char.ofNat b.toNat)
  String.ofList ('b' :: q :: bs.flatMap (quoteByte q) ++ [q])

end AccessControl.Text
