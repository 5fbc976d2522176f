import AccessControl.Decimal.Binary

/-!
# The shortest decimal text of a float

A float is written with the fewest digits that read back as the same float; of two candidates
with that many digits the nearer one is taken.

The numbers that read back as `m * 2 ^ q` are those between the midpoints to its two
neighbours, with the midpoints themselves when `m` is even.  For one digit, two digits, and so
on up to seventeen, the two points of the decimal grid next to the number are tried; if any
point of that grid lies in the interval then one of these two does.
-/

namespace AccessControl.Decimal

/-- Digits `d` and an exponent `k`: the number `0.d * 10 ^ k`. -/
structure Digits where
  digits : List Nat
  exponent : Int
  deriving DecidableEq, Repr

/-- The decimal digits of a number, most significant first; none for zero. -/
def digitsOf (n : Nat) : List Nat :=
  if n = 0 then [] else (Nat.toDigits 10 n).map fun c => c.toNat - 48

/-- `num / den < 10 ^ k`. -/
def belowPower (num den : Nat) (k : Int) : Bool :=
  if 0 ≤ k then num < den * Nat.pow 10 k.toNat else num * Nat.pow 10 (-k).toNat < den

/-- The least `k` with `num / den < 10 ^ k`, searched upwards from `k` for `fuel` steps. -/
def leastPower (num den : Nat) : Nat → Int → Int
  | 0, k => k
  | fuel + 1, k => if belowPower num den k then k else leastPower num den fuel (k + 1)

/-- An exponent at most that of the number: the binary length gives it up to a few steps. -/
def powerGuess (num den : Nat) : Int :=
  ((num.log2 : Int) - (den.log2 : Int) - 1) * 30103 / 100000 - 1

/-- Without trailing zeros. -/
def dropTrailingZeros (ds : List Nat) : List Nat :=
  (ds.reverse.dropWhile (· == 0)).reverse

/-- The interval of numbers that read back, as numerators over one denominator. -/
structure Interval where
  low : Nat
  value : Nat
  high : Nat
  denominator : Nat
  closed : Bool

/-- Quarter units of the last place: the lower neighbour of a power of two is half as far away. -/
def Interval.ofBinary (m : Nat) (q : Int) : Interval :=
  let low := if m = Nat.pow 2 52 ∧ -1074 < q then 4 * m - 1 else 4 * m - 2
  let up := if 0 ≤ q then Nat.pow 2 q.toNat else 1
  let down := if 0 ≤ q then 1 else Nat.pow 2 (-q).toNat
  ⟨low * up, 4 * m * up, (4 * m + 2) * up, 4 * down, m % 2 == 0⟩

/-- Lies `point / scale`, in units of the interval's denominator, in the interval? -/
def Interval.contains (i : Interval) (point scale : Nat) : Bool :=
  if i.closed then i.low * scale ≤ point && point ≤ i.high * scale
  else i.low * scale < point && point < i.high * scale

/-- The point of the grid with `n` digits that reads back and is nearest, if there is one. -/
def Interval.onGrid (i : Interval) (k : Int) (n : Nat) : Option Nat :=
  let unit : Int := k - n
  let scale := if 0 ≤ unit then 1 else Nat.pow 10 (-unit).toNat
  let step := if 0 ≤ unit then Nat.pow 10 unit.toNat * i.denominator else i.denominator
  let value := i.value * scale
  let below := value / step
  let lower := i.contains (below * step) scale
  let upper := i.contains ((below + 1) * step) scale
  if lower && upper then
    let gap := value - below * step
    if 2 * gap < step || (2 * gap == step && below % 2 == 0) then some below else some (below + 1)
  else if lower then some below
  else if upper then some (below + 1)
  else none

/-- The fewest digits that read back as `m * 2 ^ q`, for a positive `m`. -/
def shortest (m : Nat) (q : Int) : Digits :=
  let i := Interval.ofBinary m q
  let k := leastPower i.value i.denominator 40 (powerGuess i.value i.denominator)
  let rec grid : Nat → Nat → Digits
    | 0, _ => ⟨[], 0⟩
    | fuel + 1, n =>
      match i.onGrid k n with
      | some point =>
        let ds := digitsOf point
        ⟨dropTrailingZeros ds, k + ds.length - n⟩
      | none => grid fuel (n + 1)
  grid 17 1

end AccessControl.Decimal
