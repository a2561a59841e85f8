import Commonplace.Query.Expr
import Commonplace.Time.Reference

namespace Commonplace
namespace Time

/-!
# Windows of time

A comparison with a date selects a window of time.  A day is compared as a whole: after it means
from the next day on, and up to it means up to its end.  Equality with an instant means the whole
day that holds it.
-/

inductive Bound where
  | included (instant : Instant)
  | excluded (instant : Instant)
  | unbounded
  deriving DecidableEq, Inhabited

/-- A span of time with a lower and an upper end. -/
structure Window where
  start : Bound
  stop : Bound
  deriving DecidableEq, Inhabited

namespace Bound

def map (change : Instant -> Instant) : Bound -> Bound
  | included instant => included (change instant)
  | excluded instant => excluded (change instant)
  | unbounded => unbounded

/-- Whether an instant lies on the right side of a lower end. -/
def admitsAbove (bound : Bound) (instant : Instant) : Bool :=
  match bound with
  | included start => start.notAfter instant
  | excluded start => start.before instant
  | unbounded => true

/-- Whether an instant lies on the right side of an upper end. -/
def admitsBelow (bound : Bound) (instant : Instant) : Bool :=
  match bound with
  | included stop => instant.notAfter stop
  | excluded stop => instant.before stop
  | unbounded => true

end Bound

namespace Window

def contains (window : Window) (instant : Instant) : Bool :=
  window.start.admitsAbove instant && window.stop.admitsBelow instant

/-- The whole day that holds an instant, unless it is the last one. -/
def wholeDay? (instant : Instant) : Option Window :=
  let start := instant.startOfDay
  (start.addDays? 1).map fun next => ⟨.included start, .excluded next⟩

def ofInstant? (comparison : Comparison) (instant : Instant) : Option Window :=
  match comparison with
  | .greater => some ⟨.excluded instant, .unbounded⟩
  | .atLeast => some ⟨.included instant, .unbounded⟩
  | .less => some ⟨.unbounded, .excluded instant⟩
  | .atMost => some ⟨.unbounded, .included instant⟩
  | .equals => wholeDay? instant
  | .startsWith | .endsWith => none

/-- The window of a comparison with a day that starts at `start` and is followed by `next`. -/
def ofDaySpan? (comparison : Comparison) (start next : Instant) : Option Window :=
  match comparison with
  | .greater => some ⟨.included next, .unbounded⟩
  | .atLeast => some ⟨.included start, .unbounded⟩
  | .less => some ⟨.unbounded, .excluded start⟩
  | .atMost => some ⟨.unbounded, .excluded next⟩
  | .equals => some ⟨.included start, .excluded next⟩
  | .startsWith | .endsWith => none

/-- The window of a comparison with what a date text names. -/
def ofReference? (comparison : Comparison) (reference : Reference) : Option Window :=
  match reference with
  | .instant moment => ofInstant? comparison moment
  | .day start => (start.addDays? 1).bind fun next => ofDaySpan? comparison start next

/-- The window from an instant to the end of the day that holds another. -/
def throughDay? (start last : Instant) : Option Window :=
  (wholeDay? last).map fun day => ⟨.included start, day.stop⟩

/-- The window between two optional ends, both included. -/
def ofEnds (start stop : Option Instant) : Window :=
  ⟨start.elim .unbounded .included, stop.elim .unbounded .included⟩

end Window

end Time
end Commonplace
