import Commonplace.Proofs.Time.Calendar
import Commonplace.Time.Window

namespace Commonplace
namespace Time

/-!
# The order of date windows

A window that is made from a whole day is a window of day numbers: it contains all instants of a day
or none.  So the comparisons with a day are those of the numbers of days, and they fit together
without a gap.  Those with an instant fit together because instants are ordered.
-/

namespace Instant

/-- Whether an instant lies in the calendar. -/
def InCalendar (instant : Instant) : Prop :=
  firstDayNumber ≤ instant.dayNumber ∧ instant.dayNumber ≤ lastDayNumber

instance (instant : Instant) : Decidable instant.InCalendar :=
  inferInstanceAs (Decidable (_ ∧ _))

/-- A number of days after the start of a day, another day starts, if it is in the calendar. -/
theorem addDays?_ofDayNumber (number count : Int) :
    (ofDayNumber number).addDays? count =
      if firstDayNumber ≤ number + count ∧ number + count ≤ lastDayNumber then
        some (ofDayNumber (number + count))
      else none := by
  rw [addDays?, dayNumber_ofDayNumber]
  simp only [Bool.and_eq_true, decide_eq_true_eq]
  congr 2
  rw [ofDayNumber, ofDayNumber, Int.add_mul]

theorem addDays?_startOfDay (instant : Instant) {count : Int} :
    (instant.startOfDay.addDays? count).isSome = (instant.addDays? count).isSome := by
  rw [startOfDay, addDays?_ofDayNumber, addDays?]
  simp only [Bool.and_eq_true, decide_eq_true_eq]
  split <;> rfl

end Instant

/-- Whether an instant lies in the window of a comparison with what a date text names. -/
def Compares (comparison : Comparison) (value : Reference) (instant : Instant) : Prop :=
  ∃ window, Window.ofReference? comparison value = some window ∧ window.contains instant = true

/-- What a comparison says of two numbers. -/
def Relates : Comparison -> Int -> Int -> Prop
  | .greater, first, second => second < first
  | .atLeast, first, second => second ≤ first
  | .less, first, second => first < second
  | .atMost, first, second => first ≤ second
  | .equals, first, second => first = second
  | .startsWith, _, _ | .endsWith, _, _ => False

/-- The comparisons that dates have. -/
def orders : List Comparison :=
  [.greater, .atLeast, .less, .atMost, .equals]

/-- Of two numbers, the first is less than the second, equal to it or greater. -/
theorem existsUnique_relates (first second : Int) :
    ∃! comparison, comparison ∈ [Comparison.less, .equals, .greater] ∧
      Relates comparison first second := by
  rcases Int.lt_trichotomy first second with before | same | behind
  · refine ⟨.less, ⟨by decide, before⟩, ?_⟩
    rintro comparison ⟨listed, relates⟩
    cases comparison <;> simp [Relates] at listed relates ⊢ <;> omega
  · refine ⟨.equals, ⟨by decide, same⟩, ?_⟩
    rintro comparison ⟨listed, relates⟩
    cases comparison <;> simp [Relates] at listed relates ⊢ <;> omega
  · refine ⟨.greater, ⟨by decide, behind⟩, ?_⟩
    rintro comparison ⟨listed, relates⟩
    cases comparison <;> simp [Relates] at listed relates ⊢ <;> omega

section Comparisons

variable {comparison : Comparison}

/-- A comparison with a day is that of the numbers of days, unless the next day is not in the
calendar. -/
theorem compares_day_iff (number : Int) (instant : Instant) :
    Compares comparison (.day (.ofDayNumber number)) instant ↔
      (firstDayNumber ≤ number + 1 ∧ number + 1 ≤ lastDayNumber) ∧
        Relates comparison instant.dayNumber number := by
  rw [Compares, Window.ofReference?, Instant.addDays?_ofDayNumber]
  split
  · rename_i following
    rw [and_iff_right following]
    cases comparison
    all_goals simp [Window.ofDaySpan?, Window.contains, Bound.admitsAbove, Bound.admitsBelow,
      Instant.before_ofDayNumber, Instant.ofDayNumber_notAfter, Relates]
    all_goals omega
  · rename_i last
    refine iff_of_false ?_ fun parts => last parts.1
    rintro ⟨window, found, _⟩
    cases found

/-- Equality with an instant is that of the days. -/
theorem compares_equals_iff {moment : Instant} (following : (moment.addDays? 1).isSome = true)
    (instant : Instant) :
    Compares .equals (.instant moment) instant ↔ instant.dayNumber = moment.dayNumber := by
  rw [← Instant.addDays?_startOfDay, Instant.startOfDay, Instant.addDays?_ofDayNumber] at following
  rw [Compares, Window.ofReference?, Window.ofInstant?, Window.wholeDay?, Instant.startOfDay,
    Instant.addDays?_ofDayNumber]
  split at following
  · rename_i inCalendar
    rw [if_pos inCalendar]
    simp [Window.contains, Bound.admitsAbove, Bound.admitsBelow, Instant.before_ofDayNumber,
      Instant.ofDayNumber_notAfter]
    omega
  · cases following

theorem compares_instant_iff (moment instant : Instant) :
    (Compares .greater (.instant moment) instant ↔ moment.before instant = true) ∧
      (Compares .atMost (.instant moment) instant ↔ ¬moment.before instant = true) ∧
      (Compares .less (.instant moment) instant ↔ instant.before moment = true) ∧
      (Compares .atLeast (.instant moment) instant ↔ ¬instant.before moment = true) := by
  simp [Compares, Window.ofReference?, Window.ofInstant?, Window.contains, Bound.admitsAbove,
    Bound.admitsBelow, Instant.notAfter]

end Comparisons

/-! ## Days that date texts name -/

theorem isValid_of_readDay {order : DayOrder} {separator : Char} {characters rest : List Char}
    {day : Day} (read : readDay order separator characters = some (day, rest)) :
    day.isValid = true := by
  have valid {year : Int} {month dayOfMonth : Nat} {left : List Char}
      (made : (Day.of? year month dayOfMonth).map (fun result => (result, left)) =
        some (day, rest)) : day.isValid = true := by
    rcases Option.map_eq_some_iff.mp made with ⟨found, isFound, same⟩
    rw [Day.of?, Option.ite_none_right_eq_some] at isFound
    rw [← (Prod.mk.inj same).1, ← Option.some.inj isFound.2]
    exact isFound.1
  cases order
  all_goals
    simp only [readDay, bind, Option.bind_eq_some_iff] at read
    rcases read with ⟨_, _, _, _, _, _, _, _, _, _, made⟩
    exact valid made

theorem whole?_eq_some {value : Type} {reader : Reader value} {characters : List Char}
    {result : value} (whole : whole? reader characters = some result) :
    reader characters = some (result, []) := by
  unfold whole? at whole
  split at whole
  · rename_i found
    rw [found, Option.some.inj whole]
  · cases whole

/-- A day that a date text names is told by its first instant, and it does not lie in front of the
calendar, if the clock does not. -/
theorem exists_number_of_day {text : String} {now start : Instant}
    (resolved : reference? text now = some (.day start)) :
    ∃ number, start = .ofDayNumber number ∧
      (firstDayNumber ≤ now.dayNumber → firstDayNumber ≤ number) := by
  unfold reference? at resolved
  dsimp only at resolved
  split at resolved
  · rename_i keyword _
    cases keyword with
    | today =>
        cases resolved
        exact ⟨now.dayNumber, rfl, fun inCalendar => inCalendar⟩
    | yesterday =>
        rcases Option.map_eq_some_iff.mp resolved with ⟨found, isFound, same⟩
        rw [Instant.startOfDay, Instant.addDays?_ofDayNumber,
          Option.ite_none_right_eq_some] at isFound
        rw [← Reference.day.inj same, ← Option.some.inj isFound.2]
        exact ⟨_, rfl, fun _ => isFound.1.1⟩
    | thisWeek =>
        rcases Option.map_eq_some_iff.mp resolved with ⟨found, _, same⟩
        cases same
    | thisMonth => cases resolved
  · unfold absolute? at resolved
    split at resolved
    · cases resolved
    · split at resolved
      · cases resolved
      · rcases Option.map_eq_some_iff.mp resolved with ⟨day, isDay, same⟩
        rcases List.exists_of_findSome?_eq_some isDay with ⟨form, _, whole⟩
        rw [← Reference.day.inj same]
        exact ⟨day.number, rfl, fun _ =>
          firstDayNumber_le (isValid_of_readDay (whole?_eq_some whole))⟩

/-! ## Windows of values -/

/-- How the windows of the comparisons with a value lie to each other. -/
structure IsOrdered (value : Reference) : Prop where
  hasWindows : ∀ comparison ∈ orders, (Window.ofReference? comparison value).isSome = true
  greater : ∀ instant, Compares .greater value instant ↔ ¬Compares .atMost value instant
  less : ∀ instant, Compares .less value instant ↔ ¬Compares .atLeast value instant
  /-- An instant lies before a day, in it or behind it. -/
  day : ∀ start, value = .day start → ∀ instant,
    (∃! comparison, comparison ∈ [Comparison.less, .equals, .greater] ∧
      Compares comparison value instant) ∧
    (Compares .equals value instant ↔
      Compares .atLeast value instant ∧ Compares .atMost value instant)
  /-- An instant stands for the day that holds it. -/
  instant : ∀ moment, value = .instant moment → ∀ instant,
    (Compares .equals value instant ↔ instant.day = moment.day)

theorem isOrdered_day {number : Int}
    (following : firstDayNumber ≤ number + 1 ∧ number + 1 ≤ lastDayNumber) :
    IsOrdered (.day (.ofDayNumber number)) where
  hasWindows := by
    simp [orders, Window.ofReference?, Instant.addDays?_ofDayNumber, following, Window.ofDaySpan?]
  greater := by
    intro instant
    rw [compares_day_iff, compares_day_iff, and_iff_right following, and_iff_right following]
    exact Int.not_le.symm
  less := by
    intro instant
    rw [compares_day_iff, compares_day_iff, and_iff_right following, and_iff_right following]
    exact Int.not_le.symm
  day := by
    intro _ _ instant
    simp only [compares_day_iff, and_iff_right following]
    exact ⟨existsUnique_relates _ _, by simp only [Relates]; omega⟩
  instant := fun _ other => nomatch other

theorem isOrdered_instant {moment : Instant} (following : (moment.addDays? 1).isSome = true) :
    IsOrdered (.instant moment) where
  hasWindows := by
    have wholeDay : (Window.wholeDay? moment).isSome = true := by
      rw [Window.wholeDay?, Option.isSome_map, Instant.addDays?_startOfDay]
      exact following
    simp [orders, Window.ofReference?, Window.ofInstant?, wholeDay]
  greater := by
    intro instant
    have parts := compares_instant_iff moment instant
    rw [parts.1, parts.2.1, not_not]
  less := by
    intro instant
    have parts := compares_instant_iff moment instant
    rw [parts.2.2.1, parts.2.2.2, not_not]
  day := fun _ other => nomatch other
  instant := by
    intro _ same instant
    rw [← Reference.instant.inj same, compares_equals_iff following, Instant.day_eq_iff]

/-- The window through a day asks for what lies behind its start and what the day is compared
with. -/
theorem contains_throughDay_iff (start : Instant) (number : Int) (instant : Instant) :
    (∃ window, Window.throughDay? start (.ofDayNumber number) = some window ∧
        window.contains instant = true) ↔
      start.notAfter instant = true ∧ Compares .atMost (.day (.ofDayNumber number)) instant := by
  rw [Window.throughDay?, Window.wholeDay?, Compares, Window.ofReference?, Instant.startOfDay,
    Instant.dayNumber_ofDayNumber, Instant.addDays?_ofDayNumber]
  split
  · simp [Window.ofDaySpan?, Window.contains, Bound.admitsAbove, Bound.admitsBelow]
  · simp

/-- Date windows fit together without a gap.  Where the day after a value is in the calendar, the
comparisons with the value exclude and complete each other.  The window through a day is that of what
is at least its start and at most the day, for a clock in the calendar. -/
theorem date_windows_fit_together {text : String} {now : Instant} {value : Reference}
    (resolved : reference? text now = some value) :
    ((value.start.addDays? 1).isSome = true → IsOrdered value) ∧
    (now.InCalendar → ∀ other otherNow last, reference? other otherNow = some (.day last) →
      ∀ instant, (∃ window, Window.throughDay? value.start last = some window ∧
          window.contains instant = true) ↔
        Compares .atLeast value instant ∧ Compares .atMost (.day last) instant) := by
  cases value with
  | day start =>
      rcases exists_number_of_day resolved with ⟨number, rfl, notBefore⟩
      rw [Reference.start, Instant.addDays?_ofDayNumber, Option.isSome_ite]
      refine ⟨isOrdered_day, ?_⟩
      intro inCalendar other otherNow last otherResolved instant
      rcases exists_number_of_day otherResolved with ⟨lastNumber, rfl, _⟩
      have started := notBefore inCalendar.1
      rw [contains_throughDay_iff, Instant.ofDayNumber_notAfter, compares_day_iff,
        compares_day_iff, Relates, Relates]
      omega
  | instant moment =>
      refine ⟨isOrdered_instant, ?_⟩
      intro _ other otherNow last otherResolved instant
      rcases exists_number_of_day otherResolved with ⟨lastNumber, rfl, _⟩
      rw [contains_throughDay_iff, (compares_instant_iff moment instant).2.2.2, Reference.start,
        Instant.notAfter_iff]

/-- The comparisons with a leap day fit together, and its last nanosecond lies in the window from the
day before through the leap day. -/
theorem leap_day_fits :
    IsOrdered (.day (.ofDay ⟨2024, 2, 29⟩)) ∧
      ∃ window, Window.throughDay? (.ofDay ⟨2024, 2, 28⟩) (.ofDay ⟨2024, 2, 29⟩) = some window ∧
        window.contains ⟨1709251199, 999999999⟩ = true := by
  have clock : (⟨1700000000, 0⟩ : Instant).InCalendar := by decide
  have leapDay : reference? " 29-02-2024" ⟨1700000000, 0⟩ =
      some (.day (.ofDay ⟨2024, 2, 29⟩)) := by decide +kernel
  have dayBefore : reference? "02/28/2024" ⟨1700000000, 0⟩ =
      some (.day (.ofDay ⟨2024, 2, 28⟩)) := by decide +kernel
  refine ⟨(date_windows_fit_together leapDay).1 (by decide), ?_⟩
  apply ((date_windows_fit_together dayBefore).2 clock _ _ _ leapDay _).mpr
  exact ⟨⟨_, rfl, by decide⟩, ⟨_, rfl, by decide⟩⟩

end Time
end Commonplace
