import Commonplace.Json.Value

namespace Commonplace
namespace Json

/-!
# Reading numbers

A number without point and exponent is a whole number when it fits 64 bits; minus zero and
everything larger is a fraction.  A fraction is the digits that fit an unsigned 64-bit word,
rounded to a double, and then multiplied or divided by a power of ten.  That rounds twice, so the
last bit of a long fraction can differ from the nearest double.
-/

/-- The largest unsigned 64-bit number. -/
def largestWord : Nat :=
  Nat.pow 2 64 - 1

def digitValue (digit : Char) : Nat :=
  digit.toNat - 48

/-- Appends digits to a significand as long as it fits a word.  The second component counts the
digits taken, the third holds those left over. -/
def takeDigits (significand : Nat) : List Char -> Nat × Nat × List Char
  | [] => (significand, 0, [])
  | digit :: rest =>
      let next := significand * 10 + digitValue digit
      if largestWord < next then (significand, 0, digit :: rest)
      else
        let (result, count, left) := takeDigits next rest
        (result, count + 1, left)

/-- Divides by `10 ^ 308` until the exponent that remains is small enough for one division. -/
def shiftDown : Nat -> Float -> Nat -> Float
  | 0, value, _ => value
  | fuel + 1, value, exponent =>
      if exponent ≤ 308 then value / Float.ofScientific 1 false exponent
      else if value == 0.0 then value
      else shiftDown fuel (value / Float.ofScientific 1 false 308) (exponent - 308)

/-- A significand times a power of ten, as a double.  There is none when it is too large. -/
def scaled (significand : Nat) (exponent : Int) : Option Float :=
  let value := (UInt64.ofNat significand).toFloat
  if exponent < 0 then
    let down := (-exponent).toNat
    some (shiftDown (down / 308 + 1) value down)
  else if 308 < exponent then
    if significand == 0 then some value else none
  else
    let product := value * Float.ofScientific 1 false exponent.toNat
    if product.isInf then none else some product

structure WrittenNumber where
  negative : Bool
  whole : List Char
  places : Option (List Char)
  exponent : Option Int

def WrittenNumber.value? (number : WrittenNumber) : Option Json :=
  let (significand, _, dropped) := takeDigits 0 number.whole
  let signed := fun (value : Float) => Json.fraction (if number.negative then -value else value)
  if number.places.isNone && number.exponent.isNone && dropped.isEmpty then
    if !number.negative then some (.whole significand)
    else if significand == 0 || Nat.pow 2 63 < significand then
      some (signed (UInt64.ofNat significand).toFloat)
    else some (.whole (-(significand : Int)))
  else
    let (digits, count, _) := takeDigits significand (number.places.getD [])
    let exponent := (dropped.length : Int) - count + number.exponent.getD 0
    (scaled digits exponent).map signed

/-- Reads the exponent of a number, after its letter. -/
def readExponent (characters : List Char) : Option (Int × List Char) :=
  let (negative, rest) :=
    match characters with
    | '-' :: rest => (true, rest)
    | '+' :: rest => (false, rest)
    | rest => (false, rest)
  let digits := rest.takeWhile Char.isDigit
  if digits.isEmpty then none
  else
    let magnitude : Int := digits.foldl (fun total digit => total * 10 + digitValue digit) 0
    some (if negative then -magnitude else magnitude, rest.dropWhile Char.isDigit)

def readParts (characters : List Char) : Option (WrittenNumber × List Char) := do
  let (negative, unsigned) :=
    match characters with
    | '-' :: rest => (true, rest)
    | rest => (false, rest)
  let whole := unsigned.takeWhile Char.isDigit
  let rest := unsigned.dropWhile Char.isDigit
  if whole.isEmpty || (whole.head? == some '0' && 1 < whole.length) then none
  else
    let (places, rest) <-
      match rest with
      | '.' :: rest =>
          let places := rest.takeWhile Char.isDigit
          if places.isEmpty then none else some (some places, rest.dropWhile Char.isDigit)
      | rest => some (none, rest)
    match rest with
    | letter :: rest =>
        if letter == 'e' || letter == 'E' then
          let (exponent, rest) <- readExponent rest
          some (⟨negative, whole, places, some exponent⟩, rest)
        else some (⟨negative, whole, places, none⟩, letter :: rest)
    | [] => some (⟨negative, whole, places, none⟩, [])

def readNumber (characters : List Char) : Option (Json × List Char) := do
  let (number, rest) <- readParts characters
  let value <- number.value?
  some (value, rest)

end Json
end Commonplace
