namespace Commonplace
namespace Decimal

/-!
# Binary fractions

A finite double is `significand * 2 ^ exponent` with a sign.  This module takes the bits of a
double apart; nothing here rounds.
-/

/-- A number of the form `significand * 2 ^ exponent`, with the width of its lower neighbourhood:
`narrowBelow` says that the next smaller double is only half as far away as the next larger one. -/
structure Binary where
  significand : Nat
  exponent : Int
  narrowBelow : Bool

namespace Binary

/-- The magnitude of a finite double with the given bits. -/
def ofBits (bits : UInt64) : Binary :=
  let fraction := (bits &&& 0xFFFFFFFFFFFFF).toNat
  let biased := ((bits >>> 52) &&& 0x7FF).toNat
  if biased == 0 then ⟨fraction, -1074, false⟩
  else ⟨fraction + Nat.pow 2 52, (biased : Int) - 1075, fraction == 0 && 1 < biased⟩

def ratio (number : Binary) : Nat × Nat :=
  if 0 ≤ number.exponent then (number.significand * Nat.pow 2 number.exponent.toNat, 1)
  else (number.significand, Nat.pow 2 (-number.exponent).toNat)

end Binary

/-- Whether the sign bit of a double is set. -/
def isNegative (bits : UInt64) : Bool :=
  bits >>> 63 == 1

/-- The number of decimal digits before the point, for a quotient of at least one; one less for
every zero that follows the point, for a quotient below one. -/
def magnitude (numerator denominator : Nat) : Int :=
  if denominator ≤ numerator then (Nat.toDigits 10 (numerator / denominator)).length
  else
    let zeros := (List.range 400).find? fun count =>
      denominator ≤ numerator * Nat.pow 10 (count + 1)
    Int.negOfNat (zeros.getD 0)

/-- Multiplies a quotient by a power of ten, which may be negative. -/
def scale (numerator denominator : Nat) (power : Int) : Nat × Nat :=
  if 0 ≤ power then (numerator * Nat.pow 10 power.toNat, denominator)
  else (numerator, denominator * Nat.pow 10 (-power).toNat)

/-- Rounds a quotient to the nearest whole number; a half goes to the even neighbour. -/
def roundToEven (numerator denominator : Nat) : Nat :=
  let floor := numerator / denominator
  let twice := 2 * (numerator % denominator)
  if twice < denominator then floor
  else if denominator < twice then floor + 1
  else floor + floor % 2

end Decimal
end Commonplace
