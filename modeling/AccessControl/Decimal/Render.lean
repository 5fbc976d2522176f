import AccessControl.Decimal.Shortest

/-!
# How a float is written

Numbers from `0.0001` up to sixteen digits before the point are written positionally and keep a
digit after the point; all others are written with one digit before the point and an exponent
of at least two digits with its sign.
-/

namespace AccessControl.Decimal

/-- The character of a decimal digit. -/
def digitChar (d : Nat) : Char :=
  Char.ofNat (0x30 + d)

/-- The digits with a point after the first `exponent` of them. -/
def positional (d : Digits) : List Char :=
  let cs := d.digits.map digitChar
  if d.exponent ≤ 0 then '0' :: '.' :: List.replicate (-d.exponent).toNat '0' ++ cs
  else
    let k := d.exponent.toNat
    if cs.length ≤ k then cs ++ List.replicate (k - cs.length) '0' ++ ['.', '0']
    else cs.take k ++ '.' :: cs.drop k

/-- The exponent of ten, with its sign and at least two digits. -/
def exponentText (e : Int) : List Char :=
  let ds := Nat.toDigits 10 e.natAbs
  (if e < 0 then '-' else '+') :: (if ds.length < 2 then '0' :: ds else ds)

/-- One digit, the rest after the point, and the power of ten. -/
def scientific (d : Digits) : List Char :=
  match d.digits.map digitChar with
  | [] => []
  | c :: rest =>
    (if rest.isEmpty then [c] else c :: '.' :: rest) ++ 'e' :: exponentText (d.exponent - 1)

/-- The text of a positive number. -/
def magnitude (m : Nat) (q : Int) : List Char :=
  let d := shortest m q
  if -4 < d.exponent ∧ d.exponent ≤ 16 then positional d else scientific d

/-- The text of a float. -/
def text (x : Float) : String :=
  match FloatValue.ofFloat x with
  | .undefined => "nan"
  | .infinite negative => if negative then "-inf" else "inf"
  | .finite b =>
    let body := if b.mantissa = 0 then ['0', '.', '0'] else magnitude b.mantissa b.exponent
    String.ofList (if b.negative then '-' :: body else body)

end AccessControl.Decimal
