namespace Commonplace
namespace Yaml

/-!
# Numbers in YAML

Whole numbers are written in decimal, hexadecimal, octal or binary digits.  A decimal number that
starts with a zero it does not need is a text.  Whole numbers of more than 64 bits are refused up
to 128 bits; beyond that they are fractions.
-/

/-- What a plain scalar is when it is read as a whole number. -/
inductive WholeReading where
  | value (number : Int)
  | tooLarge
  | noNumber
  deriving DecidableEq

/-- The value of a digit in bases up to sixteen. -/
def digitOf (base : Nat) (character : Char) : Option Nat :=
  let value :=
    if character.isDigit then character.toNat - 48
    else if 'a' ≤ character && character ≤ 'f' then character.toNat - 87
    else if 'A' ≤ character && character ≤ 'F' then character.toNat - 55
    else 16
  if value < base then some value else none

/-- The number written by at least one digit. -/
def naturalOf (base : Nat) (digits : List Char) : Option Nat :=
  if digits.isEmpty then none
  else
    digits.foldlM (fun total digit => (digitOf base digit).map fun value => total * base + value) 0

def withoutSign (text : List Char) : List Char :=
  match text with
  | '+' :: rest | '-' :: rest => rest
  | _ => text

/-- Whether a text consists of digits but starts with a zero that no number starts with. -/
def hasIdleZero (text : List Char) : Bool :=
  match withoutSign text with
  | '0' :: digit :: rest => (digit :: rest).all Char.isDigit
  | _ => false

/-- The digits and the base of an unsigned number. -/
def baseOf (text : List Char) : Nat × List Char :=
  match text with
  | '0' :: 'x' :: rest => (16, rest)
  | '0' :: 'o' :: rest => (8, rest)
  | '0' :: 'b' :: rest => (2, rest)
  | _ => (10, text)

/-- The number that a text without a sign writes. -/
def magnitudeOf (text : List Char) : Option Nat :=
  let (base, digits) := baseOf text
  naturalOf base digits

def readWhole (text : List Char) : WholeReading :=
  let negative := text.head? == some '-'
  match if hasIdleZero text then none else magnitudeOf (withoutSign text) with
  | none => .noNumber
  | some magnitude =>
      if negative then
        if magnitude ≤ Nat.pow 2 63 then .value (-(magnitude : Int))
        else if magnitude ≤ Nat.pow 2 127 then .tooLarge
        else .noNumber
      else if magnitude < Nat.pow 2 64 then .value magnitude
      else if magnitude < Nat.pow 2 128 then .tooLarge
      else .noNumber

/-- A number with digits before and after its point, and an exponent. -/
def decimalValue (whole places : List Char) (exponent : Int) : Option Float :=
  match naturalOf 10 (whole ++ places) with
  | none => none
  | some significand =>
      let power := exponent - places.length
      if significand == 0 then some 0.0
      else if 400 < power + (whole.length + places.length : Nat) then none
      else if power + (whole.length + places.length : Nat) < -400 then some 0.0
      else
        let value := Float.ofScientific significand (power < 0) power.natAbs
        if value.isInf then none else some value

/-- Reads an exponent: a sign and digits. -/
def readPower (text : List Char) : Option Int :=
  (naturalOf 10 (withoutSign text)).map fun magnitude =>
    if text.head? == some '-' then -(magnitude : Int) else magnitude

/-- Reads a decimal fraction without a sign. -/
def readDecimal (text : List Char) : Option Float :=
  let whole := text.takeWhile Char.isDigit
  let rest := text.dropWhile Char.isDigit
  let (places, rest) :=
    match rest with
    | '.' :: rest => (rest.takeWhile Char.isDigit, rest.dropWhile Char.isDigit)
    | rest => ([], rest)
  if whole.isEmpty && places.isEmpty then none
  else
    match rest with
    | [] => decimalValue whole places 0
    | letter :: power =>
        if letter == 'e' || letter == 'E' then
          (readPower power).bind (decimalValue whole places)
        else none

/-- Reads a text as a fraction. -/
def readFraction (text : String) : Option Float :=
  let infinity : Float := 1.0 / 0.0
  if [".inf", ".Inf", ".INF", "+.inf", "+.Inf", "+.INF"].contains text then some infinity
  else if ["-.inf", "-.Inf", "-.INF"].contains text then some (-infinity)
  else if [".nan", ".NaN", ".NAN"].contains text then some (0.0 / 0.0)
  else
    match text.toList with
    | '-' :: rest => (readDecimal rest).map fun value => -value
    | '+' :: rest => readDecimal rest
    | rest => readDecimal rest

end Yaml
end Commonplace
