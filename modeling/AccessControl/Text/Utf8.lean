/-!
# Bytes as text

Text travels as UTF-8.  A character is one byte below `80`, or a leading byte that announces one,
two or three continuation bytes `80` to `BF`.  The first continuation byte is restricted further
after four leading bytes, so that no character is written longer than needed, none is half of a
surrogate pair, and none lies beyond `10FFFF`.
-/

namespace AccessControl.Text

/-- How many continuation bytes follow a leading byte, what the leading byte contributes, and
the range of the first continuation byte. -/
def leadingByte? (b : Nat) : Option (Nat × Nat × Nat × Nat) :=
  if b < 0x80 then some (0, b, 0, 0)
  else if 0xC2 ≤ b ∧ b ≤ 0xDF then some (1, b - 0xC0, 0x80, 0xBF)
  else if b = 0xE0 then some (2, 0, 0xA0, 0xBF)
  else if b = 0xED then some (2, 0xD, 0x80, 0x9F)
  else if 0xE1 ≤ b ∧ b ≤ 0xEF then some (2, b - 0xE0, 0x80, 0xBF)
  else if b = 0xF0 then some (3, 0, 0x90, 0xBF)
  else if 0xF1 ≤ b ∧ b ≤ 0xF3 then some (3, b - 0xF0, 0x80, 0xBF)
  else if b = 0xF4 then some (3, 4, 0x80, 0x8F)
  else none

/-- What is wrong with bytes that are not text. -/
inductive Utf8Flaw
  /-- No character begins with this byte. -/
  | badStart (byte place : Nat)
  /-- The character that begins here goes on with a wrong byte, after so many good ones. -/
  | badContinuation (place length : Nat) (byte : Nat)
  /-- The bytes end inside the character that begins here. -/
  | cutShort (place length : Nat) (byte : Nat)
  deriving DecidableEq, Repr

/-- Where the reader stands: between characters, or inside one. -/
inductive Utf8State
  | between
  | inside (start length code needed low high lead : Nat)
  deriving DecidableEq, Repr

/-- Reads bytes from a place on, with the characters read so far in reverse. -/
def readUtf8 (place : Nat) (state : Utf8State) (acc : List Char) :
    List UInt8 → Except Utf8Flaw (List Char)
  | [] => match state with
    | .between => .ok acc.reverse
    | .inside start length _ _ _ _ lead => .error (.cutShort start length lead)
  | b :: rest =>
    match state with
    | .between =>
      match leadingByte? b.toNat with
      | none => .error (.badStart b.toNat place)
      | some (0, code, _, _) => readUtf8 (place + 1) .between (Char.ofNat code :: acc) rest
      | some (needed, code, low, high) =>
        readUtf8 (place + 1) (.inside place 1 code needed low high b.toNat) acc rest
    | .inside start length code needed low high lead =>
      if low ≤ b.toNat ∧ b.toNat ≤ high then
        let code := code * 64 + (b.toNat - 0x80)
        if needed ≤ 1 then readUtf8 (place + 1) .between (Char.ofNat code :: acc) rest
        else
          readUtf8 (place + 1) (.inside start (length + 1) code (needed - 1) 0x80 0xBF lead) acc
            rest
      else .error (.badContinuation start length lead)

/-- The text that the bytes are, or what is wrong with them. -/
def utf8Text (data : List UInt8) : Except Utf8Flaw String :=
  (readUtf8 0 .between [] data).map String.ofList

/-- The text that the bytes are, if they are text. -/
def decodeUtf8 (data : List UInt8) : Option String :=
  match utf8Text data with
  | .ok s => some s
  | .error _ => none

/-! ## Reading on regardless

Bytes that are not text can also be read with the replacement character in the place of every
part that is none: of a byte with which no character begins, or of the bytes of a character up to
the one that does not continue it. -/

/-- The character that stands for what is no text. -/
def replacement : Char := '\uFFFD'

/-- What a byte between two characters adds to the text, and where the reader stands after it. -/
def beginChar (b : UInt8) : List Char × Utf8State :=
  match leadingByte? b.toNat with
  | none => ([replacement], .between)
  | some (0, code, _, _) => ([Char.ofNat code], .between)
  | some (needed, code, low, high) => ([], .inside 0 1 code needed low high b.toNat)

/-- What a byte adds to the text, and where the reader stands after it. -/
def continueChar (state : Utf8State) (b : UInt8) : List Char × Utf8State :=
  match state with
  | .between => beginChar b
  | .inside start length code needed low high lead =>
    if low ≤ b.toNat ∧ b.toNat ≤ high then
      let code := code * 64 + (b.toNat - 0x80)
      if needed ≤ 1 then ([Char.ofNat code], .between)
      else ([], .inside start (length + 1) code (needed - 1) 0x80 0xBF lead)
    else (replacement :: (beginChar b).1, (beginChar b).2)

/-- What the end of the bytes adds to the text. -/
def endChar : Utf8State → List Char
  | .between => []
  | .inside _ _ _ _ _ _ _ => [replacement]

namespace Utf8Flaw

/-- A byte as two hexadecimal digits. -/
def hex (n : Nat) : String :=
  let digit (d : Nat) : Char := if d < 10 then Char.ofNat (0x30 + d) else Char.ofNat (0x57 + d)
  String.ofList [digit (n / 16 % 16), digit (n % 16)]

/-- One place, or the first and last of several. -/
def span (byte place length : Nat) : String :=
  if length ≤ 1 then "byte 0x" ++ hex byte ++ " in position " ++ toString place
  else "bytes in position " ++ toString place ++ "-" ++ toString (place + length - 1)

/-- The flaw in words. -/
def message : Utf8Flaw → String
  | badStart byte place =>
    "'utf-8' codec can't decode " ++ span byte place 1 ++ ": invalid start byte"
  | badContinuation place length byte =>
    "'utf-8' codec can't decode " ++ span byte place length ++ ": invalid continuation byte"
  | cutShort place length byte =>
    "'utf-8' codec can't decode " ++ span byte place length ++ ": unexpected end of data"

end Utf8Flaw

end AccessControl.Text
