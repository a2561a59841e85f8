import Commonplace.Decimal.Shortest

namespace Commonplace
namespace Decimal

/-!
# Doubles as text

A double is written with its shortest digits.  The point is placed among them from `10 ^ -5` to
below `10 ^ 16`; outside of that an exponent follows.  A number without exponent always has at
least one digit after its point.
-/

/-- Whether an exponent that is not negative is written with its sign. -/
inductive ExponentSign where
  | always
  | whenNegative
  deriving DecidableEq

def exponentText (sign : ExponentSign) (exponent : Int) : List Char :=
  let plus := if sign == .always && 0 ≤ exponent then ['+'] else []
  'e' :: plus ++ (toString exponent).toList

def placePoint (sign : ExponentSign) (decimal : Digits) : List Char :=
  let digits := decimal.digits
  let count := (digits.length : Int)
  if 0 < decimal.point && decimal.point ≤ 16 then
    if count ≤ decimal.point then
      digits ++ List.replicate (decimal.point - count).toNat '0' ++ ['.', '0']
    else
      digits.take decimal.point.toNat ++ '.' :: digits.drop decimal.point.toNat
  else if -5 < decimal.point && decimal.point ≤ 0 then
    '0' :: '.' :: List.replicate (-decimal.point).toNat '0' ++ digits
  else
    let exponent := exponentText sign (decimal.point - 1)
    match digits with
    | [] => ['0']
    | [digit] => digit :: exponent
    | digit :: more => digit :: '.' :: more ++ exponent

/-- A finite double, with the fewest digits that read back. -/
def placed (sign : ExponentSign) (value : Float) : String :=
  let bits := value.toBits
  let magnitude := bits &&& 0x7FFFFFFFFFFFFFFF
  let digits := if magnitude == 0 then ['0', '.', '0'] else placePoint sign (shortest magnitude)
  String.ofList (if isNegative bits then '-' :: digits else digits)

end Decimal
end Commonplace
