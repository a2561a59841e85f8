import Commonplace.Decimal.Binary

namespace Commonplace
namespace Decimal

/-!
# Rounded decimals

A finite double is written with a fixed number of places after the point.  The exact value is
rounded, a half to the even neighbour.
-/

/-- The digits of a whole number, filled up with zeros on the left. -/
def padded (width count : Nat) : List Char :=
  let digits := Nat.toDigits 10 count
  List.replicate (width - digits.length) '0' ++ digits

/-- Puts a point before the last `places` digits. -/
def withPoint (places : Nat) (digits : List Char) : List Char :=
  if places == 0 then digits
  else digits.take (digits.length - places) ++ '.' :: digits.drop (digits.length - places)

def withSign (bits : UInt64) (text : List Char) : String :=
  String.ofList (if isNegative bits then '-' :: text else text)

/-- Writes a finite double with a fixed number of places. -/
def fixed (places : Nat) (value : Float) : String :=
  let bits := value.toBits
  let (numerator, denominator) := (Binary.ofBits bits).ratio
  let steps := roundToEven (numerator * Nat.pow 10 places) denominator
  withSign bits (withPoint places (padded (places + 1) steps))

end Decimal
end Commonplace
