import AccessControl.Text.Blank
import AccessControl.Text.Digit

/-!
# Reading numbers

A whole number is written with decimal digits of any script, an optional sign, white space around
it, and single underscores between digits.
-/

namespace AccessControl.Decimal

/-- Reads digits, with single underscores between them; `fresh` holds where an underscore may
not stand. -/
def readDigits (fresh : Bool) (acc : Nat) : List Char → Option Nat
  | [] => if fresh then none else some acc
  | '_' :: rest => if fresh then none else readDigits true acc rest
  | c :: rest =>
    match Text.digitValue? c with
    | some d => readDigits false (acc * 10 + d) rest
    | none => none

/-- Reads a whole number with an optional sign. -/
def readSigned : List Char → Option Int
  | '-' :: rest => (readDigits true 0 rest).map fun n => -(n : Int)
  | '+' :: rest => (readDigits true 0 rest).map fun n => (n : Int)
  | cs => (readDigits true 0 cs).map fun n => (n : Int)

/-- Reads a whole number with white space around it. -/
def readInt? (s : String) : Option Int :=
  readSigned (Text.trimList Text.isWhite s.toList)

/-- The float nearest to `m * 10 ^ e`.  Exponents far outside the range of floats are settled
by the number of digits alone. -/
def nearestFloat (m : Nat) (e : Int) : Float :=
  if m = 0 then 0.0
  else
    let size : Int := (Nat.toDigits 10 m).length + e
    if 400 < size then 1.0 / 0.0
    else if size < -400 then 0.0
    else if 0 ≤ e then Float.ofScientific m false e.toNat
    else Float.ofScientific m true (-e).toNat

end AccessControl.Decimal
