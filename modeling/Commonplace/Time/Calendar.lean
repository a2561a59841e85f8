namespace Commonplace
namespace Time

/-!
# Calendar days

Days of the proleptic Gregorian calendar and their numbers, counted from 1970-01-01.  The count
starts its years in March, so that the leap day is the last day of a year.
-/

structure Day where
  year : Int
  month : Nat
  day : Nat
  deriving DecidableEq, Inhabited

def isLeapYear (year : Int) : Bool :=
  year % 4 == 0 && (year % 100 != 0 || year % 400 == 0)

def monthLength (year : Int) (month : Nat) : Nat :=
  match month with
  | 2 => if isLeapYear year then 29 else 28
  | 4 | 6 | 9 | 11 => 30
  | _ => 31

/-- The first and the last year that have days. -/
def firstYear : Int :=
  -262143

def lastYear : Int :=
  262142

namespace Day

/-- Whether the parts of a day name a day of the calendar. -/
def isValid (day : Day) : Bool :=
  firstYear ≤ day.year && day.year ≤ lastYear && 1 ≤ day.month && day.month ≤ 12 &&
    1 ≤ day.day && day.day ≤ monthLength day.year day.month

/-- The number of a day, zero for 1970-01-01. -/
def number (day : Day) : Int :=
  let year := if day.month ≤ 2 then day.year - 1 else day.year
  let month := (day.month + 9) % 12
  let yearStart := 365 * year + year / 4 - year / 100 + year / 400
  yearStart + ((153 * month + 2) / 5 + (day.day - 1) : Nat) - 719468

def ofNumber (number : Int) : Day :=
  let shifted := number + 719468
  let era := shifted / 146097
  let dayOfEra := shifted % 146097
  let yearOfEra :=
    (dayOfEra - dayOfEra / 1460 + dayOfEra / 36524 - dayOfEra / 146096) / 365
  let dayOfYear := dayOfEra - (365 * yearOfEra + yearOfEra / 4 - yearOfEra / 100)
  let shiftedMonth := (5 * dayOfYear + 2) / 153
  let day := dayOfYear - (153 * shiftedMonth + 2) / 5 + 1
  let month := if shiftedMonth < 10 then shiftedMonth + 3 else shiftedMonth - 9
  let year := yearOfEra + era * 400
  ⟨if month ≤ 2 then year + 1 else year, month.toNat, day.toNat⟩

end Day

def firstDayNumber : Int :=
  Day.number ⟨firstYear, 1, 1⟩

def lastDayNumber : Int :=
  Day.number ⟨lastYear, 12, 31⟩

/-- The number of days since Monday, for the day with a given number. -/
def daysSinceMonday (number : Int) : Int :=
  (number + 3) % 7

end Time
end Commonplace
