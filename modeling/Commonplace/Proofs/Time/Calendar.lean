import Commonplace.Time.Instant
import Mathlib.Tactic.IntervalCases
import Mathlib.Tactic.Ring

namespace Commonplace
namespace Time

/-!
# The count of days

The count of days starts its years in March.  Within a year of this kind the months take turns in a
fixed way, and only the length of the last one depends on the year.  A day is therefore told by such
a year, a month in it and a day of the month, and the number of the day can be taken apart into the
three again.  So every number belongs to exactly one day.
-/

/-- The number of days in front of a year that starts in March. -/
def marchStart (year : Int) : Int :=
  365 * year + year / 4 - year / 100 + year / 400

/-- The number of days in front of a month that is counted from March, in its year. -/
def monthStart (month : Int) : Int :=
  (153 * month + 2) / 5

/-- The number of days of a year that starts in March.  It ends with the February of the next
one. -/
def marchLength (year : Int) : Int :=
  if isLeapYear (year + 1) then 366 else 365

theorem marchStart_le {first second : Int} (ordered : first ≤ second) :
    marchStart first ≤ marchStart second := by
  unfold marchStart
  omega

theorem isLeapYear_iff (year : Int) :
    isLeapYear year = true ↔ year % 4 = 0 ∧ (year % 100 ≠ 0 ∨ year % 400 = 0) := by
  simp [isLeapYear]

/-- A year as a year of a cycle of four, in a century, in an era of four centuries. -/
structure IsYear (year era century cycle rest : Int) : Prop where
  whole : year = 400 * era + 100 * century + 4 * cycle + rest
  century : 0 ≤ century ∧ century < 4
  cycle : 0 ≤ cycle ∧ cycle < 25
  rest : 0 ≤ rest ∧ rest < 4

theorem exists_isYear (year : Int) :
    ∃ era century cycle rest, IsYear year era century cycle rest := by
  refine ⟨year / 400, year % 400 / 100, year % 100 / 4, year % 4, ?_⟩
  constructor <;> omega

namespace IsYear

variable {year era century cycle rest : Int}

theorem marchStart_eq (isYear : IsYear year era century cycle rest) :
    marchStart year = 146097 * era + (36524 * century + 1461 * cycle + 365 * rest) := by
  rcases isYear with ⟨whole, someCentury, someCycle, someRest⟩
  have cycles : year / 4 = 100 * era + 25 * century + cycle := by omega
  have centuries : year / 100 = 4 * era + century := by omega
  have eras : year / 400 = era := by omega
  rw [marchStart, cycles, centuries, eras]
  omega

/-- Of the four years of a cycle, the last can have one more day.  Of the centuries, only the last
ends with it. -/
theorem lt_marchLength_iff (isYear : IsYear year era century cycle rest) {day : Int} :
    day < marchLength year ↔
      day < 365 ∨ day = 365 ∧ rest = 3 ∧ (cycle < 24 ∨ century = 3) := by
  rcases isYear with ⟨whole, someCentury, someCycle, someRest⟩
  have leap : isLeapYear (year + 1) = true ↔ rest = 3 ∧ (cycle < 24 ∨ century = 3) := by
    rw [isLeapYear_iff]
    omega
  by_cases long : isLeapYear (year + 1) = true
  · rw [marchLength, if_pos long]
    have parts := leap.mp long
    omega
  · rw [marchLength, if_neg long]
    have parts := mt leap.mpr long
    omega

section Days

variable {dayOfYear dayOfEra : Int}
  (whole : dayOfEra = 36524 * century + 1461 * cycle + 365 * rest + dayOfYear)

include whole

theorem dayOfYear_eq (isYear : IsYear year era century cycle rest) {yearOfEra : Int}
    (isYearOfEra : yearOfEra = 100 * century + 4 * cycle + rest) :
    dayOfEra - (365 * yearOfEra + yearOfEra / 4 - yearOfEra / 100) = dayOfYear := by
  rcases isYear with ⟨_, someCentury, someCycle, someRest⟩
  have cycles : yearOfEra / 4 = 25 * century + cycle := by omega
  have centuries : yearOfEra / 100 = century := by omega
  omega

variable (someDay : 0 ≤ dayOfYear) (inYear : dayOfYear < marchLength year)

include someDay inYear

theorem inEra (isYear : IsYear year era century cycle rest) :
    0 ≤ dayOfEra ∧ dayOfEra < 146097 := by
  have inYear := isYear.lt_marchLength_iff.mp inYear
  rcases isYear with ⟨_, someCentury, someCycle, someRest⟩
  omega

/-- The year of an era, from the number of a day in the era. -/
theorem yearOfEra_eq (isYear : IsYear year era century cycle rest) :
    (dayOfEra - dayOfEra / 1460 + dayOfEra / 36524 - dayOfEra / 146096) / 365 =
      100 * century + 4 * cycle + rest := by
  have inYear := isYear.lt_marchLength_iff.mp inYear
  rcases isYear with ⟨_, someCentury, someCycle, someRest⟩
  by_cases last : dayOfEra = 146096
  · rw [last]
    omega
  · have centuries : dayOfEra / 36524 = century := by omega
    have eras : dayOfEra / 146096 = 0 := by omega
    have cycles : dayOfEra / 1460 = 25 * century + cycle ∨
        dayOfEra / 1460 = 25 * century + cycle + 1 ∧ rest = 3 ∧ 0 < dayOfYear := by omega
    have leapDay : dayOfYear = 365 → dayOfEra / 1460 = 25 * century + cycle + 1 := by omega
    omega

end Days

end IsYear

/-- A day of a year that starts in March.  Its month is counted from March and its day from the
start of the month, both from zero. -/
structure MarchDay where
  year : Int
  month : Int
  day : Int

namespace MarchDay

/-- The number of the day among all days. -/
def number (parts : MarchDay) : Int :=
  marchStart parts.year + monthStart parts.month + parts.day - 719468

/-- The same day in a year that starts in January. -/
def toDay (parts : MarchDay) : Day :=
  ⟨if parts.month < 10 then parts.year else parts.year + 1,
    (if parts.month < 10 then parts.month + 3 else parts.month - 9).toNat, (parts.day + 1).toNat⟩

/-- Whether there is such a day. -/
structure IsDate (parts : MarchDay) : Prop where
  month : 0 ≤ parts.month ∧ parts.month < 12
  day : 0 ≤ parts.day
  inMonth : monthStart parts.month + parts.day < monthStart (parts.month + 1)
  inYear : monthStart parts.month + parts.day < marchLength parts.year

end MarchDay

/-- Whether the parts of a day name a day of a month. -/
structure Day.IsDate (day : Day) : Prop where
  month : 1 ≤ day.month ∧ day.month ≤ 12
  day : 1 ≤ day.day ∧ day.day ≤ monthLength day.year day.month

/-! ## Taking numbers apart -/

theorem monthOf_eq {month day : Int} (someDay : 0 ≤ day)
    (inMonth : monthStart month + day < monthStart (month + 1)) :
    (5 * (monthStart month + day) + 2) / 153 = month := by
  unfold monthStart at inMonth ⊢
  omega

namespace MarchDay

theorem IsDate.ofNumber_number {parts : MarchDay} (isDate : parts.IsDate) :
    Day.ofNumber parts.number = parts.toDay := by
  rcases exists_isYear parts.year with ⟨era, century, cycle, rest, isYear⟩
  rcases parts with ⟨year, month, day⟩
  rcases isDate with ⟨someMonth, someDay, inMonth, inYear⟩
  dsimp only at someMonth someDay inMonth inYear isYear
  have somewhere : 0 ≤ monthStart month + day := by
    unfold monthStart
    omega
  obtain ⟨dayOfEra, isDay⟩ :
      ∃ dayOfEra, dayOfEra = number ⟨year, month, day⟩ + 719468 - 146097 * era := ⟨_, rfl⟩
  have whole : dayOfEra = 36524 * century + 1461 * cycle + 365 * rest + (monthStart month + day) := by
    rw [isDay, number, isYear.marchStart_eq]
    ring
  have inEra := isYear.inEra whole somewhere inYear
  have yearOfEra := isYear.yearOfEra_eq whole somewhere inYear
  have dayOfYear := isYear.dayOfYear_eq whole yearOfEra
  have eraOf : (number ⟨year, month, day⟩ + 719468) / 146097 = era := by omega
  have dayOf : (number ⟨year, month, day⟩ + 719468) % 146097 = dayOfEra := by omega
  have dayOfMonth : monthStart month + day - (153 * month + 2) / 5 + 1 = day + 1 := by
    unfold monthStart
    omega
  have wholeYear : 100 * century + 4 * cycle + rest + era * 400 = year := by
    rw [isYear.whole]
    ring
  rw [Day.ofNumber, toDay]
  dsimp only
  rw [eraOf, dayOf, dayOfYear, yearOfEra, monthOf_eq someDay inMonth, dayOfMonth, wholeYear]
  by_cases early : month < 10
  · rw [if_pos early, if_pos early, if_neg (by omega)]
  · rw [if_neg early, if_neg early, if_pos (by omega)]

/-- A day of an era is a day of one of its years.  The leap day that ends a cycle or an era belongs to
the last year of it. -/
theorem exists_year (total : Int) :
    ∃ year dayOfYear, (0 ≤ dayOfYear ∧ dayOfYear < marchLength year) ∧
      marchStart year + dayOfYear = total := by
  obtain ⟨dayOfEra, isDayOfEra⟩ : ∃ dayOfEra, dayOfEra = total % 146097 := ⟨_, rfl⟩
  obtain ⟨century, dayOfCentury, someCentury, inCentury, isCentury⟩ : ∃ century dayOfCentury,
      (0 ≤ century ∧ century < 4) ∧
      (0 ≤ dayOfCentury ∧ (dayOfCentury < 36524 ∨ dayOfCentury = 36524 ∧ century = 3)) ∧
      dayOfEra = 36524 * century + dayOfCentury :=
    ⟨min (dayOfEra / 36524) 3, dayOfEra - 36524 * min (dayOfEra / 36524) 3, by omega, by omega,
      by omega⟩
  obtain ⟨cycle, dayOfCycle, someCycle, inCycle, isCycle⟩ : ∃ cycle dayOfCycle,
      (0 ≤ cycle ∧ cycle < 25) ∧ (0 ≤ dayOfCycle ∧ dayOfCycle < 1461) ∧
      dayOfCentury = 1461 * cycle + dayOfCycle :=
    ⟨dayOfCentury / 1461, dayOfCentury % 1461, by omega, by omega, by omega⟩
  obtain ⟨rest, dayOfYear, someRest, inYear, isRest⟩ : ∃ rest dayOfYear,
      (0 ≤ rest ∧ rest < 4) ∧
      (0 ≤ dayOfYear ∧ (dayOfYear < 365 ∨ dayOfYear = 365 ∧ rest = 3)) ∧
      dayOfCycle = 365 * rest + dayOfYear :=
    ⟨min (dayOfCycle / 365) 3, dayOfCycle - 365 * min (dayOfCycle / 365) 3, by omega, by omega,
      by omega⟩
  have isYear : IsYear (400 * (total / 146097) + 100 * century + 4 * cycle + rest)
      (total / 146097) century cycle rest :=
    ⟨rfl, someCentury, someCycle, someRest⟩
  refine ⟨_, dayOfYear, ⟨inYear.1, isYear.lt_marchLength_iff.mpr ?_⟩, ?_⟩
  · omega
  · rw [isYear.marchStart_eq]
    omega

/-- A day of a year is a day of one of its months. -/
theorem exists_month {dayOfYear : Int} (someDay : 0 ≤ dayOfYear) (inYear : dayOfYear ≤ 365) :
    ∃ month day, (0 ≤ month ∧ month < 12) ∧ 0 ≤ day ∧ monthStart month + day = dayOfYear ∧
      dayOfYear < monthStart (month + 1) := by
  refine ⟨(5 * dayOfYear + 2) / 153, dayOfYear - monthStart ((5 * dayOfYear + 2) / 153),
    ⟨?_, ?_⟩, ?_, ?_, ?_⟩
  · omega
  · omega
  all_goals
    unfold monthStart
    omega

theorem marchLength_le (year : Int) : marchLength year ≤ 366 := by
  rw [marchLength]
  split <;> decide

/-- Every number belongs to a day. -/
theorem exists_of_number (total : Int) :
    ∃ parts : MarchDay, parts.IsDate ∧ parts.number = total := by
  rcases exists_year (total + 719468) with ⟨year, dayOfYear, ⟨someDay, inYear⟩, isTotal⟩
  have length := marchLength_le year
  rcases exists_month someDay (by omega) with ⟨month, day, someMonth, inMonth, rfl, isDay⟩
  refine ⟨⟨year, month, day⟩, ⟨someMonth, inMonth, isDay, inYear⟩, ?_⟩
  rw [number]
  dsimp only
  omega

/-! ## Years that start in January -/

/-- A month ends where the next one starts, or the last one with its year. -/
theorem monthLength_toDay {parts : MarchDay} (someMonth : 0 ≤ parts.month ∧ parts.month < 12) :
    (monthLength parts.toDay.year parts.toDay.month : Int) =
      min (monthStart (parts.month + 1)) (marchLength parts.year) - monthStart parts.month := by
  rcases parts with ⟨year, month, day⟩
  dsimp only at someMonth
  have length := marchLength_le year
  obtain ⟨least, most⟩ := someMonth
  rw [toDay, marchLength]
  interval_cases month
  all_goals cases leap : isLeapYear (year + 1) <;> simp [monthLength, monthStart, leap]

theorem IsDate.toDay_isDate {parts : MarchDay} (isDate : parts.IsDate) : parts.toDay.IsDate := by
  have length := monthLength_toDay isDate.month
  rcases isDate with ⟨someMonth, someDay, inMonth, inYear⟩
  constructor
  · rw [toDay]
    dsimp only
    split <;> omega
  · have isDay : parts.toDay.day = (parts.day + 1).toNat := rfl
    omega

theorem IsDate.number_toDay {parts : MarchDay} (isDate : parts.IsDate) :
    parts.toDay.number = parts.number := by
  rcases parts with ⟨year, month, day⟩
  rcases isDate with ⟨someMonth, someDay, inMonth, inYear⟩
  dsimp only at someMonth someDay inMonth inYear
  simp only [Day.number, toDay, number, marchStart, monthStart]
  by_cases early : month < 10
  · rw [if_pos early, if_pos early, if_neg (by omega)]
    have index : (((month + 3).toNat + 9) % 12 : Nat) = month := by omega
    omega
  · rw [if_neg early, if_neg early, if_pos (by omega), Int.add_sub_cancel]
    have index : (((month - 9).toNat + 9) % 12 : Nat) = month := by omega
    omega

theorem exists_of_day {day : Day} (isDate : day.IsDate) :
    ∃ parts : MarchDay, parts.IsDate ∧ parts.toDay = day := by
  rcases day with ⟨year, month, day⟩
  rcases isDate with ⟨someMonth, someDay, inMonth⟩
  dsimp only at someMonth someDay inMonth
  have close (marchYear marchMonth : Int) (inYear : 0 ≤ marchMonth ∧ marchMonth < 12)
      (same : toDay ⟨marchYear, marchMonth, day - 1⟩ = ⟨year, month, day⟩) :
      ∃ parts : MarchDay, parts.IsDate ∧ parts.toDay = ⟨year, month, day⟩ := by
    have length := @monthLength_toDay ⟨marchYear, marchMonth, day - 1⟩ inYear
    rw [same] at length
    dsimp only at length
    exact ⟨_, ⟨inYear, by dsimp only; omega, by dsimp only; omega, by dsimp only; omega⟩, same⟩
  by_cases early : month ≤ 2
  · refine close (year - 1) (month + 9) (by omega) ?_
    rw [toDay, Day.mk.injEq]
    dsimp only
    rw [if_neg (by omega), if_neg (by omega)]
    omega
  · refine close year (month - 3) (by omega) ?_
    rw [toDay, Day.mk.injEq]
    dsimp only
    rw [if_pos (by omega), if_pos (by omega)]
    omega

end MarchDay

namespace Day

theorem number_ofNumber (number : Int) : (ofNumber number).number = number := by
  rcases MarchDay.exists_of_number number with ⟨parts, isDate, rfl⟩
  rw [isDate.ofNumber_number, isDate.number_toDay]

theorem isDate_ofNumber (number : Int) : (ofNumber number).IsDate := by
  rcases MarchDay.exists_of_number number with ⟨parts, isDate, rfl⟩
  rw [isDate.ofNumber_number]
  exact isDate.toDay_isDate

theorem IsDate.ofNumber_number {day : Day} (isDate : day.IsDate) : ofNumber day.number = day := by
  rcases MarchDay.exists_of_day isDate with ⟨parts, isMarchDate, rfl⟩
  rw [isMarchDate.number_toDay, isMarchDate.ofNumber_number]

theorem isValid_iff (day : Day) :
    day.isValid = true ↔ (firstYear ≤ day.year ∧ day.year ≤ lastYear) ∧ day.IsDate := by
  simp only [isValid, Bool.and_eq_true, decide_eq_true_eq]
  constructor
  · rintro ⟨⟨⟨⟨⟨first, last⟩, january⟩, december⟩, someDay⟩, inMonth⟩
    exact ⟨⟨first, last⟩, ⟨january, december⟩, ⟨someDay, inMonth⟩⟩
  · rintro ⟨⟨first, last⟩, ⟨january, december⟩, ⟨someDay, inMonth⟩⟩
    exact ⟨⟨⟨⟨⟨first, last⟩, january⟩, december⟩, someDay⟩, inMonth⟩

end Day

/-- No day of the calendar has a smaller number than the first one. -/
theorem firstDayNumber_le {day : Day} (valid : day.isValid = true) :
    firstDayNumber ≤ day.number := by
  have inYears := ((Day.isValid_iff day).mp valid).1.1
  rcases MarchDay.exists_of_day ((Day.isValid_iff day).mp valid).2 with ⟨parts, isDate, rfl⟩
  have number : firstDayNumber = marchStart (firstYear - 1) + 306 - 719468 := by decide
  rw [isDate.number_toDay, number, MarchDay.number]
  rw [MarchDay.toDay] at inYears
  dsimp only at inYears
  have someMonth := isDate.month
  have someDay := isDate.day
  by_cases early : parts.month < 10
  · rw [if_pos early] at inYears
    have started : marchStart firstYear ≤ marchStart parts.year := marchStart_le inYears
    have inMonth : 0 ≤ monthStart parts.month := by
      unfold monthStart
      omega
    have firstLength : marchStart firstYear = marchStart (firstYear - 1) + 365 := by decide
    omega
  · rw [if_neg early] at inYears
    have started : marchStart (firstYear - 1) ≤ marchStart parts.year :=
      marchStart_le (by omega)
    have inMonth : 306 ≤ monthStart parts.month := by
      unfold monthStart
      omega
    omega

/-! ## Days of instants -/

namespace Instant

theorem dayNumber_eq (instant : Instant) : instant.dayNumber = instant.seconds / 86400 :=
  Int.fdiv_eq_ediv_of_nonneg _ (by decide)

theorem secondOfDay_eq (instant : Instant) :
    (instant.secondOfDay : Int) = instant.seconds % 86400 := by
  rw [secondOfDay, daySeconds, Int.fmod_eq_emod_of_nonneg _ (by decide)]
  omega

@[simp] theorem dayNumber_ofDayNumber (number : Int) : (ofDayNumber number).dayNumber = number := by
  rw [dayNumber_eq, ofDayNumber, daySeconds]
  exact Int.mul_ediv_cancel _ (by decide)

theorem before_iff (first second : Instant) : first.before second = true ↔
    first.seconds < second.seconds ∨
      first.seconds = second.seconds ∧ first.nanoseconds < second.nanoseconds := by
  simp [before]

theorem notAfter_iff (first second : Instant) :
    first.notAfter second = true ↔ ¬second.before first = true := by
  simp [notAfter]

section Days

variable (number : Int) (instant : Instant)

theorem before_ofDayNumber :
    instant.before (ofDayNumber number) = true ↔ instant.dayNumber < number := by
  rw [before_iff, dayNumber_eq]
  simp only [ofDayNumber, daySeconds]
  omega

theorem ofDayNumber_notAfter :
    (ofDayNumber number).notAfter instant = true ↔ number ≤ instant.dayNumber := by
  rw [notAfter_iff, before_ofDayNumber, Int.not_lt]

end Days

/-- Two instants lie in the same day of the calendar when the numbers of their days are the same. -/
theorem day_eq_iff {first second : Instant} :
    first.day = second.day ↔ first.dayNumber = second.dayNumber := by
  constructor
  · intro same
    rw [← Day.number_ofNumber first.dayNumber, ← Day.number_ofNumber second.dayNumber]
    exact congrArg Day.number same
  · exact congrArg Day.ofNumber

/-- The first instant of a day lies in the day. -/
theorem day_ofDay {day : Day} (isDate : day.IsDate) : (ofDay day).day = day := by
  rw [Instant.day, ofDay, dayNumber_ofDayNumber, isDate.ofNumber_number]

end Instant

end Time
end Commonplace
