import Commonplace.Text.LowerCase
import Commonplace.Time.Reader

namespace Commonplace
namespace Time

/-!
# Date texts

A date text names a whole day or an instant.  It is a keyword, which depends on the clock, or a
timestamp, or a date in one of four notations, the first of which that fits counts.  All dates are
those of Greenwich.
-/

/-- What a date text names. -/
inductive Reference where
  /-- A whole day, by its first instant. -/
  | day (start : Instant)
  /-- A moment. -/
  | instant (moment : Instant)
  deriving DecidableEq, Inhabited

/-- The first instant of what a date text names. -/
def Reference.start : Reference -> Instant
  | day start => start
  | instant moment => moment

def dayNotations : List (DayOrder × Char) :=
  [(.yearFirst, '-'), (.yearFirst, '/'), (.dayFirst, '-'), (.monthFirst, '/')]

/-- The words that name a date relative to the clock. -/
inductive Keyword where
  | today
  | yesterday
  | thisWeek
  | thisMonth
  deriving DecidableEq

namespace Keyword

/-- The keyword that a lower-case text is. -/
def ofText? (text : String) : Option Keyword :=
  if text == "today" then some today
  else if text == "yesterday" then some yesterday
  else if text == "this-week" then some thisWeek
  else if text == "this-month" then some thisMonth
  else none

/-- What a keyword names at a given time.  A week starts on Monday. -/
def resolve (keyword : Keyword) (now : Instant) : Option Reference :=
  let start := now.startOfDay
  match keyword with
  | today => some (.day start)
  | yesterday => (start.addDays? (-1)).map .day
  | thisWeek => (start.addDays? (-daysSinceMonday now.dayNumber)).map .instant
  | thisMonth => some (.instant (.ofDay { now.day with day := 1 }))

end Keyword

/-- What an absolute date text names. -/
def absolute? (characters : List Char) : Option Reference :=
  match whole? readTimestamp characters with
  | some instant => some (.instant instant)
  | none =>
      match whole? readLocal characters with
      | some instant => some (.instant instant)
      | none =>
          (dayNotations.findSome? fun form => whole? (readDay form.1 form.2) characters).map
            fun day => .day (.ofDay day)

/-- What a date text names at a given time. -/
def reference? (text : String) (now : Instant) : Option Reference :=
  let value := Text.trim text
  match Keyword.ofText? (Text.lower value) with
  | some keyword => keyword.resolve now
  | none => absolute? value.toList

end Time
end Commonplace
