import Commonplace.Decimal.Binary

namespace Commonplace
namespace Decimal

/-!
# The shortest decimal that reads back

The digits of a double are the fewest that still lie nearer to it than to any other double, and of
those the nearest ones.  The search runs over grids of one digit, two digits and so on, and tests
on each grid the two neighbours of the number in exact arithmetic.
-/

/-- A positive decimal `0.d₁d₂… * 10 ^ point`, its digits without zeros at the end. -/
structure Digits where
  digits : List Char
  point : Int

/-- The interval of reals that round to a double, over twice or four times its denominator: lower
end, value, upper end, denominator. -/
def Binary.interval (number : Binary) : Nat × Nat × Nat × Nat :=
  let (numerator, denominator) := number.ratio
  let step := if 0 ≤ number.exponent then Nat.pow 2 number.exponent.toNat else 1
  let below := if number.narrowBelow then step else 2 * step
  (4 * numerator - below, 4 * numerator, 4 * numerator + 2 * step, 4 * denominator)

/-- Whether a whole number of steps of `10 ^ -power` lies in the interval of a double.  The ends
belong to it when the significand is even. -/
def Binary.reads (number : Binary) (power : Int) (count : Nat) : Bool :=
  let (low, _, high, denominator) := number.interval
  let (scaledLow, scaledDenominator) := scale low denominator power
  let (scaledHigh, _) := scale high denominator power
  let point := count * scaledDenominator
  if number.significand % 2 == 0 then scaledLow ≤ point && point ≤ scaledHigh
  else scaledLow < point && point < scaledHigh

/-- The neighbour of a double on the grid of `count` digits that reads back, the nearer of two. -/
def Binary.onGrid (number : Binary) (point : Int) (count : Nat) : Option Nat :=
  let (numerator, denominator) := number.ratio
  let power := (count : Int) - point
  let (scaled, scaledDenominator) := scale numerator denominator power
  let floor := scaled / scaledDenominator
  match number.reads power floor && 0 < floor, number.reads power (floor + 1) with
  | true, true => some (roundToEven scaled scaledDenominator)
  | true, false => some floor
  | false, true => some (floor + 1)
  | false, false => none

def dropZeros (digits : List Char) : List Char :=
  (digits.reverse.dropWhile fun digit => digit == '0').reverse

/-- The shortest digits of the positive finite double with the given bits. -/
def shortest (bits : UInt64) : Digits :=
  let number := Binary.ofBits bits
  let (numerator, denominator) := number.ratio
  let point := magnitude numerator denominator
  let found := (List.range 17).findSome? fun count =>
    (number.onGrid point (count + 1)).map fun steps => (count + 1, steps)
  match found with
  | some (count, steps) =>
      let digits := Nat.toDigits 10 steps
      ⟨dropZeros digits, point + ((digits.length : Int) - count)⟩
  | none => ⟨['0'], 1⟩

end Decimal
end Commonplace
