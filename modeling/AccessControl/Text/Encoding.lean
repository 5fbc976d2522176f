import AccessControl.Text.Utf8

/-!
# Which encoding a text is in

A JSON text may travel in UTF-8, UTF-16 or UTF-32, in either byte order, with or without a byte
order mark.  Without a mark the first four bytes tell: a JSON text begins with two characters of
ASCII, so that the places of zero bytes among them give the encoding away.

Half of a surrogate pair is accepted in all encodings and read as the replacement character.
-/

namespace AccessControl.Text

/-- An encoding of texts. -/
inductive Encoding
  | utf8
  | utf16 (bigEndian : Bool)
  | utf32 (bigEndian : Bool)
  deriving DecidableEq, Repr

namespace Encoding

/-! ## 1. Detection -/

/-- The encoding that a byte order mark announces, with the length of the mark. -/
def ofMark? : List UInt8 → Option (Encoding × Nat)
  | 0x00 :: 0x00 :: 0xFE :: 0xFF :: _ => some (.utf32 true, 4)
  | 0xFF :: 0xFE :: 0x00 :: 0x00 :: _ => some (.utf32 false, 4)
  | 0xFE :: 0xFF :: _ => some (.utf16 true, 2)
  | 0xFF :: 0xFE :: _ => some (.utf16 false, 2)
  | 0xEF :: 0xBB :: 0xBF :: _ => some (.utf8, 3)
  | _ => none

/-- The encoding that zero bytes at the beginning give away. -/
def ofZeros : List UInt8 → Encoding
  | a :: b :: c :: d :: _ =>
    if a = 0 then (if b = 0 then .utf32 true else .utf16 true)
    else if b = 0 then (if c = 0 ∧ d = 0 then .utf32 false else .utf16 false)
    else .utf8
  | [a, b] => if a = 0 then .utf16 true else if b = 0 then .utf16 false else .utf8
  | _ => .utf8

/-! ## 2. Decoding -/

/-- The character with a code; none beyond the last one. -/
def charOf? (n : Nat) : Option Char :=
  if 0x10FFFF < n then none
  else if 0xD800 ≤ n ∧ n ≤ 0xDFFF then some replacement
  else some (Char.ofNat n)

/-- Numbers of two bytes each; none if a byte is left over. -/
def pairs? (bigEndian : Bool) : List UInt8 → Option (List Nat)
  | [] => some []
  | [_] => none
  | a :: b :: rest =>
    let n := if bigEndian then a.toNat * 0x100 + b.toNat else b.toNat * 0x100 + a.toNat
    (pairs? bigEndian rest).map (n :: ·)

/-- Joins the halves of surrogate pairs. -/
def joinHalves : List Nat → List Nat
  | [] => []
  | [n] => [n]
  | high :: low :: rest =>
    if 0xD800 ≤ high ∧ high ≤ 0xDBFF ∧ 0xDC00 ≤ low ∧ low ≤ 0xDFFF then
      (0x10000 + (high - 0xD800) * 0x400 + (low - 0xDC00)) :: joinHalves rest
    else high :: joinHalves (low :: rest)

/-- Numbers of two such numbers each; none if one is left over. -/
def quads? (bigEndian : Bool) : List Nat → Option (List Nat)
  | [] => some []
  | [_] => none
  | a :: b :: rest =>
    let n := if bigEndian then a * 0x10000 + b else b * 0x10000 + a
    (quads? bigEndian rest).map (n :: ·)

/-- The bytes of UTF-8 with every half of a surrogate pair replaced. -/
def withoutHalves : List UInt8 → List UInt8
  | 0xED :: b :: c :: rest =>
    if 0xA0 ≤ b ∧ b ≤ 0xBF ∧ 0x80 ≤ c ∧ c ≤ 0xBF then 0xEF :: 0xBF :: 0xBD :: withoutHalves rest
    else 0xED :: withoutHalves (b :: c :: rest)
  | b :: rest => b :: withoutHalves rest
  | [] => []

/-- The text that bytes are in an encoding, if they are text. -/
def decode (e : Encoding) (data : List UInt8) : Option String :=
  match e with
  | utf8 => decodeUtf8 (withoutHalves data)
  | utf16 bigEndian =>
    ((pairs? bigEndian data).bind fun ns => (joinHalves ns).mapM charOf?).map String.ofList
  | utf32 bigEndian =>
    (((pairs? bigEndian data).bind (quads? bigEndian)).bind fun ns => ns.mapM charOf?).map
      String.ofList

end Encoding

/-- The text of bytes, in the encoding that they seem to be in, without a byte order mark. -/
def decodeAny (data : List UInt8) : Option String :=
  match Encoding.ofMark? data with
  | some (e, length) => e.decode (data.drop length)
  | none => (Encoding.ofZeros data).decode data

end AccessControl.Text
