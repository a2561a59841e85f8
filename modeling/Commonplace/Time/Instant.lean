import Commonplace.Time.Calendar

namespace Commonplace
namespace Time

/-!
# Instants

An instant is a whole second, counted from the first moment of 1970, and nanoseconds on top of it.
Nanoseconds from one thousand million on stand for a leap second, which follows the second it is
attached to.  Instants are ordered by their seconds and then by their nanoseconds.
-/

/-- A moment in time. -/
structure Instant where
  seconds : Int
  nanoseconds : Nat
  deriving DecidableEq, Inhabited

def daySeconds : Int :=
  86400

namespace Instant

def before (first second : Instant) : Bool :=
  first.seconds < second.seconds ||
    (first.seconds == second.seconds && first.nanoseconds < second.nanoseconds)

def notAfter (first second : Instant) : Bool :=
  !second.before first

def order (first second : Instant) : Ordering :=
  (compare first.seconds second.seconds).then (compare first.nanoseconds second.nanoseconds)

def dayNumber (instant : Instant) : Int :=
  instant.seconds.fdiv daySeconds

/-- The seconds that have passed since the start of the day. -/
def secondOfDay (instant : Instant) : Nat :=
  (instant.seconds.fmod daySeconds).toNat

def day (instant : Instant) : Day :=
  Day.ofNumber instant.dayNumber

def ofDayNumber (number : Int) : Instant :=
  ⟨number * daySeconds, 0⟩

def ofDay (day : Day) : Instant :=
  ofDayNumber day.number

/-- The first instant of the day that holds an instant. -/
def startOfDay (instant : Instant) : Instant :=
  ofDayNumber instant.dayNumber

/-- The instant a number of days later, or earlier, while it is in the calendar. -/
def addDays? (instant : Instant) (count : Int) : Option Instant :=
  let number := instant.dayNumber + count
  if firstDayNumber ≤ number && number ≤ lastDayNumber then
    some { instant with seconds := instant.seconds + count * daySeconds }
  else none

end Instant

end Time
end Commonplace
