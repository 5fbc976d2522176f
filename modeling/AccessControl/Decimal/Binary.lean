/-!
# The numbers a float stands for

A finite float is a whole number times a power of two.  Everything exact about it, its decimal
text, its whole part, its place among the whole numbers, is computed from these two numbers and
never from rounded arithmetic.
-/

namespace AccessControl

/-- A number `mantissa * 2 ^ exponent` with a sign; zero keeps its sign. -/
structure Binary where
  negative : Bool
  mantissa : Nat
  exponent : Int
  deriving DecidableEq, Repr

/-- What a float stands for. -/
inductive FloatValue
  | finite (b : Binary)
  | infinite (negative : Bool)
  | undefined
  deriving DecidableEq, Repr

namespace FloatValue

/-- Reads the sign, the eleven bits of the exponent and the fifty-two of the fraction.  The
fraction of a normal number has a leading one that is not stored. -/
def ofBits (bits : UInt64) : FloatValue :=
  let n := bits.toNat
  let negative := n / Nat.pow 2 63 % 2 == 1
  let e : Nat := n / Nat.pow 2 52 % Nat.pow 2 11
  let f : Nat := n % Nat.pow 2 52
  if e = 2047 then (if f = 0 then .infinite negative else .undefined)
  else if e = 0 then .finite ⟨negative, f, -1074⟩
  else .finite ⟨negative, f + Nat.pow 2 52, (e : Int) - 1075⟩

/-- What the float stands for. -/
def ofFloat (x : Float) : FloatValue :=
  ofBits x.toBits

end FloatValue

namespace Binary

/-- The number as a quotient of two whole numbers, without its sign. -/
def ratio (b : Binary) : Nat × Nat :=
  if 0 ≤ b.exponent then (b.mantissa * Nat.pow 2 b.exponent.toNat, 1)
  else (b.mantissa, Nat.pow 2 (-b.exponent).toNat)

/-- The whole part, toward zero. -/
def truncate (b : Binary) : Int :=
  let r := b.ratio
  let n : Int := (r.1 / r.2 : Nat)
  if b.negative then -n else n

/-- The sign of `b - n`: the number is compared with a whole number exactly. -/
def compareInt (b : Binary) (n : Int) : Ordering :=
  let r := b.ratio
  let num : Int := if b.negative then -(r.1 : Int) else r.1
  compare num (n * r.2)

end Binary

end AccessControl
