import Commonplace.Text.Blank
import Commonplace.Time.Instant

namespace Commonplace
namespace Time

/-!
# Reading dates and times

There are two kinds of reading.  A full timestamp has parts of fixed width and a zone.  The
shorter forms are more tolerant: blanks may stand before a number, a number may have fewer digits,
and a year may have a sign, after which it may have any number of digits.

A reader takes a value from the front of a text and returns it with the rest.
-/

/-- A reader takes a value from the front of a text and returns the rest. -/
abbrev Reader (value : Type) :=
  List Char -> Option (value × List Char)

/-- The number written by some decimal digits. -/
def digitsValue (digits : List Char) : Nat :=
  digits.foldl (fun total digit => total * 10 + (digit.toNat - 48)) 0

def readChar (expected : Char) : Reader Unit
  | head :: rest => if head == expected then some ((), rest) else none
  | [] => none

/-- Reads at least one digit, and at most `limit`. -/
def readDigits (limit : Nat) : Reader Nat := fun characters =>
  let digits := (characters.take limit).takeWhile Char.isDigit
  if digits.isEmpty then none else some (digitsValue digits, characters.drop digits.length)

/-- Reads exactly `width` digits. -/
def readFixed (width : Nat) : Reader Nat := fun characters =>
  let digits := (characters.take width).takeWhile Char.isDigit
  if digits.length == width then some (digitsValue digits, characters.drop width) else none

/-- Reads a number of at most two digits, after any blanks. -/
def readShort : Reader Nat := fun characters =>
  readDigits 2 (characters.dropWhile Text.isBlank)

/-- Reads a year after any blanks: a sign and digits, or at most four digits. -/
def readYear : Reader Int := fun characters =>
  match characters.dropWhile Text.isBlank with
  | '-' :: rest => do
      let (value, rest) <- readDigits rest.length rest
      some (-(value : Int), rest)
  | '+' :: rest => do
      let (value, rest) <- readDigits rest.length rest
      some ((value : Int), rest)
  | rest => do
      let (value, rest) <- readDigits 4 rest
      some ((value : Int), rest)

/-- The value of a reader that reads a whole text. -/
def whole? {value : Type} (reader : Reader value) (characters : List Char) : Option value :=
  match reader characters with
  | some (result, []) => some result
  | _ => none

/-- A calendar day from its parts, if there is one. -/
def Day.of? (year : Int) (month day : Nat) : Option Day :=
  let result : Day := ⟨year, month, day⟩
  if result.isValid then some result else none

/-- An instant from a day and a time of day, with a fraction in nanoseconds.  Second 60 is a leap
second. -/
def instantOf? (day : Day) (hour minute second nanoseconds : Nat) : Option Instant :=
  if hour < 24 && minute < 60 && second ≤ 60 then
    let leap := if second == 60 then 1 else 0
    some ⟨day.number * daySeconds + (hour * 3600 + minute * 60 + (second - leap) : Nat),
      nanoseconds + leap * 1000000000⟩
  else none

inductive DayOrder where
  | yearFirst
  | dayFirst
  | monthFirst
  deriving DecidableEq

/-- Reads a day whose parts stand in a given order, with a separator between them. -/
def readDay (order : DayOrder) (separator : Char) : Reader Day := fun characters =>
  match order with
  | .yearFirst => do
      let (year, rest) <- readYear characters
      let ((), rest) <- readChar separator rest
      let (month, rest) <- readShort rest
      let ((), rest) <- readChar separator rest
      let (day, rest) <- readShort rest
      (Day.of? year month day).map fun result => (result, rest)
  | .dayFirst => do
      let (day, rest) <- readShort characters
      let ((), rest) <- readChar separator rest
      let (month, rest) <- readShort rest
      let ((), rest) <- readChar separator rest
      let (year, rest) <- readYear rest
      (Day.of? year month day).map fun result => (result, rest)
  | .monthFirst => do
      let (month, rest) <- readShort characters
      let ((), rest) <- readChar separator rest
      let (day, rest) <- readShort rest
      let ((), rest) <- readChar separator rest
      let (year, rest) <- readYear rest
      (Day.of? year month day).map fun result => (result, rest)

/-- Reads a day and a time of day without a zone. -/
def readLocal : Reader Instant := fun characters => do
  let (day, rest) <- readDay .yearFirst '-' characters
  let ((), rest) <- readChar 'T' rest
  let (hour, rest) <- readShort rest
  let ((), rest) <- readChar ':' rest
  let (minute, rest) <- readShort rest
  let ((), rest) <- readChar ':' rest
  let (second, rest) <- readShort rest
  (instantOf? day hour minute second 0).map fun instant => (instant, rest)

/-- Reads the fraction of a second, in nanoseconds.  Digits after the ninth do not count. -/
def readFraction : Reader Nat
  | '.' :: rest =>
      let digits := rest.takeWhile Char.isDigit
      if digits.isEmpty then none
      else
        let kept := digits.take 9
        some (digitsValue kept * Nat.pow 10 (9 - kept.length), rest.dropWhile Char.isDigit)
  | rest => some (0, rest)

/-- Reads the hours and minutes of a zone, in seconds. -/
def readZoneTime : Reader Int := fun characters => do
  let (hours, rest) <- readFixed 2 characters
  let ((), rest) <- readChar ':' rest
  let (minutes, rest) <- readFixed 2 rest
  if hours < 24 && minutes < 60 then some (((hours * 3600 + minutes * 60 : Nat) : Int), rest)
  else none

/-- Reads a zone: the letter Z, or a sign and a time. -/
def readZone : Reader Int
  | 'Z' :: rest | 'z' :: rest => some (0, rest)
  | '+' :: rest => readZoneTime rest
  | '-' :: rest | '−' :: rest => (readZoneTime rest).map fun found => (-found.1, found.2)
  | _ => none

/-- Reads a full timestamp and moves it to the zone of Greenwich. -/
def readTimestamp : Reader Instant := fun characters => do
  let (year, rest) <- readFixed 4 characters
  let ((), rest) <- readChar '-' rest
  let (month, rest) <- readFixed 2 rest
  let ((), rest) <- readChar '-' rest
  let (day, rest) <- readFixed 2 rest
  let day <- Day.of? year month day
  match rest with
  | separator :: rest =>
      if separator == 'T' || separator == 't' || separator == ' ' then
        let (hour, rest) <- readFixed 2 rest
        let ((), rest) <- readChar ':' rest
        let (minute, rest) <- readFixed 2 rest
        let ((), rest) <- readChar ':' rest
        let (second, rest) <- readFixed 2 rest
        let (nanoseconds, rest) <- readFraction rest
        let (zone, rest) <- readZone rest
        let instant <- instantOf? day hour minute second nanoseconds
        some (⟨instant.seconds - zone, instant.nanoseconds⟩, rest)
      else none
  | [] => none

end Time
end Commonplace
