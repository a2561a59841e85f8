import Commonplace.Time.Instant

namespace Commonplace
namespace Time

/-!
# Writing instants

An instant is written as its date, the letter T, its time of day with as many digits of its
fraction as it needs, in groups of three, and the zone, which is always that of Greenwich.
-/

/-- How the zone of Greenwich is written. -/
inductive Zone where
  | offset
  | letter
  deriving DecidableEq, Inhabited

def Zone.text : Zone -> String
  | offset => "+00:00"
  | letter => "Z"

/-- A whole number with zeros on the left up to a width. -/
def padded (width value : Nat) : String :=
  let digits := Nat.toDigits 10 value
  String.ofList (List.replicate (width - digits.length) '0' ++ digits)

/-- A year: four digits, or a sign and at least four digits outside 0 to 9999. -/
def yearText (year : Int) : String :=
  if 0 ≤ year && year ≤ 9999 then padded 4 year.toNat
  else (if year < 0 then "-" else "+") ++ padded 4 year.natAbs

/-- The fraction of a second, with as few groups of three digits as possible. -/
def fractionText (nanoseconds : Nat) : String :=
  if nanoseconds == 0 then ""
  else if nanoseconds % 1000000 == 0 then "." ++ padded 3 (nanoseconds / 1000000)
  else if nanoseconds % 1000 == 0 then "." ++ padded 6 (nanoseconds / 1000)
  else "." ++ padded 9 nanoseconds

def Day.text (day : Day) : String :=
  yearText day.year ++ "-" ++ padded 2 day.month ++ "-" ++ padded 2 day.day

def Instant.text (instant : Instant) (zone : Zone) : String :=
  let leap := if 1000000000 ≤ instant.nanoseconds then 1 else 0
  let second := instant.secondOfDay
  instant.day.text ++ "T" ++ padded 2 (second / 3600) ++ ":" ++ padded 2 (second / 60 % 60) ++
    ":" ++ padded 2 (second % 60 + leap) ++
    fractionText (instant.nanoseconds - leap * 1000000000) ++ zone.text

end Time
end Commonplace
