import Commonplace.Proofs.Time.ReadingBack
import Commonplace.Proofs.Time.Windows

namespace Commonplace
namespace Time

/-!
# Dates that follow the clock

A keyword names the first moment of a day that is found from the day of the clock: that day itself,
the one before it, the last Monday, or the first day of the month.  It is never later than the day
of the clock, and it does not go back when the clock goes on.  All that a keyword means comes from
the number of this day; only at the start of the calendar there may be no such day.
-/

/-- The first day of the month of a day. -/
def Day.firstOfMonth (day : Day) : Day :=
  { day with day := 1 }

namespace Keyword

/-- The word for a keyword, in small letters. -/
def word : Keyword -> String
  | today => "today"
  | yesterday => "yesterday"
  | thisWeek => "this-week"
  | thisMonth => "this-month"

/-- Whether a text stands for a keyword, in any letter case and between any blanks. -/
def IsText (keyword : Keyword) (text : String) : Prop :=
  Text.lower (Text.trim text) = keyword.word

theorem isText_word (keyword : Keyword) : keyword.IsText keyword.word := by
  unfold IsText
  cases keyword <;> decide +kernel

theorem IsText.reference?_eq {keyword : Keyword} {text : String} (isText : keyword.IsText text)
    (now : Instant) : reference? text now = keyword.resolve now := by
  have found : ofText? keyword.word = some keyword := by cases keyword <;> decide
  rw [reference?, show Text.lower (Text.trim text) = keyword.word from isText, found]

/-- The number of the day that a keyword names, from that of the clock. -/
def startNumber (keyword : Keyword) (number : Int) : Int :=
  match keyword with
  | today => number
  | yesterday => number - 1
  | thisWeek => number - daysSinceMonday number
  | thisMonth => (Day.ofNumber number).firstOfMonth.number

/-- How a keyword names the start of a day: for the whole day, or as an instant. -/
def refer (keyword : Keyword) (start : Instant) : Reference :=
  match keyword with
  | today | yesterday => .day start
  | thisWeek | thisMonth => .instant start

end Keyword

/-! ## Days of a month -/

namespace Day

/-- The days of a month follow its first one. -/
theorem IsDate.number_eq {day : Day} (isDate : day.IsDate) :
    day.number = day.firstOfMonth.number + (day.day - 1) := by
  have someDay := isDate.day.1
  simp only [number, firstOfMonth]
  omega

/-- The days between the first of a month and some day of it are days of the same month. -/
theorem firstOfMonth_between {number between : Int}
    (started : (ofNumber number).firstOfMonth.number ≤ between) (notBehind : between ≤ number) :
    (ofNumber between).firstOfMonth = (ofNumber number).firstOfMonth := by
  have isDate := isDate_ofNumber number
  have last := isDate.number_eq
  rw [number_ofNumber] at last
  obtain ⟨count, isCount⟩ :
      ∃ count : Nat, between = (ofNumber number).firstOfMonth.number + count :=
    ⟨(between - (ofNumber number).firstOfMonth.number).toNat, by omega⟩
  obtain ⟨day, isDay⟩ : ∃ day : Day, day = { ofNumber number with day := count + 1 } := ⟨_, rfl⟩
  have inMonth : day.IsDate := by
    refine ⟨isDay ▸ isDate.month, ?_⟩
    have length := isDate.day
    rw [isDay]
    dsimp only
    omega
  have sameMonth : day.firstOfMonth = (ofNumber number).firstOfMonth := by
    rw [isDay]
    rfl
  have isBetween : day.number = between := by
    rw [inMonth.number_eq, sameMonth, isCount, isDay]
    dsimp only
    omega
  rw [← isBetween, inMonth.ofNumber_number, sameMonth]

end Day

namespace Keyword

/-! ## The day that a keyword names -/

theorem startNumber_le (keyword : Keyword) (number : Int) :
    keyword.startNumber number ≤ number := by
  cases keyword with
  | today => exact Int.le_refl number
  | yesterday => exact Int.sub_le_self number (by decide)
  | thisWeek =>
      simp only [startNumber, daysSinceMonday]
      omega
  | thisMonth =>
      have isDate := Day.isDate_ofNumber number
      have someDay := isDate.day.1
      have last := isDate.number_eq
      rw [Day.number_ofNumber] at last
      simp only [startNumber]
      omega

/-- A later day does not lead back. -/
theorem startNumber_mono (keyword : Keyword) {first second : Int} (ordered : first ≤ second) :
    keyword.startNumber first ≤ keyword.startNumber second := by
  cases keyword with
  | today => exact ordered
  | yesterday => exact Int.sub_le_sub_right ordered 1
  | thisWeek =>
      simp only [startNumber, daysSinceMonday]
      omega
  | thisMonth =>
      rcases Int.lt_or_le first (thisMonth.startNumber second) with earlier | sameMonth
      · exact (startNumber_le thisMonth first).trans earlier.le
      · exact (congrArg Day.number (Day.firstOfMonth_between sameMonth ordered)).le

/-- The calendar starts with a month. -/
theorem firstDayNumber_le_startNumber {number : Int} (inCalendar : firstDayNumber ≤ number) :
    firstDayNumber ≤ thisMonth.startNumber number := by
  have first : thisMonth.startNumber firstDayNumber = firstDayNumber := by decide
  rw [← first]
  exact startNumber_mono thisMonth inCalendar

/-- An earlier day is not behind the calendar. -/
theorem addDays?_back {now : Instant} (inCalendar : now.InCalendar) {count : Int}
    (back : 0 ≤ count) :
    now.startOfDay.addDays? (-count) =
      if firstDayNumber ≤ now.dayNumber - count then
        some (.ofDayNumber (now.dayNumber - count))
      else none := by
  have last := inCalendar.2
  rw [Instant.startOfDay, Instant.addDays?_ofDayNumber, ← Int.sub_eq_add_neg]
  congr 1
  rw [eq_iff_iff, and_iff_left_iff_imp]
  omega

/-- A keyword names the start of a day, if there is such a day in the calendar. -/
theorem resolve_eq (keyword : Keyword) {now : Instant} (inCalendar : now.InCalendar) :
    keyword.resolve now =
      if firstDayNumber ≤ keyword.startNumber now.dayNumber then
        some (keyword.refer (.ofDayNumber (keyword.startNumber now.dayNumber)))
      else none := by
  cases keyword with
  | today =>
      rw [if_pos (by exact inCalendar.1)]
      rfl
  | yesterday =>
      rw [resolve, addDays?_back inCalendar (by decide), apply_ite (Option.map Reference.day)]
      rfl
  | thisWeek =>
      have someDays : 0 ≤ daysSinceMonday now.dayNumber := Int.emod_nonneg _ (by decide)
      rw [resolve, addDays?_back inCalendar someDays, apply_ite (Option.map Reference.instant)]
      rfl
  | thisMonth =>
      rw [if_pos (firstDayNumber_le_startNumber inCalendar.1)]
      rfl

theorem start_refer (keyword : Keyword) (start : Instant) :
    (keyword.refer start).start = start := by
  cases keyword <;> rfl

end Keyword

/-! ## The clock -/

namespace Instant

theorem dayNumber_le {first second : Instant} (ordered : first.notAfter second = true) :
    first.dayNumber ≤ second.dayNumber := by
  rw [notAfter_iff, before_iff] at ordered
  rw [dayNumber_eq, dayNumber_eq]
  omega

theorem isSome_addDays?_iff {instant : Instant} {count : Int} :
    (instant.addDays? count).isSome = true ↔
      firstDayNumber ≤ instant.dayNumber + count ∧ instant.dayNumber + count ≤ lastDayNumber := by
  rw [addDays?, Option.isSome_ite, Bool.and_eq_true, decide_eq_true_eq, decide_eq_true_eq]

/-- Whether the days before and after that of an instant are in the calendar. -/
structure HasNeighbours (instant : Instant) : Prop where
  previous : (instant.addDays? (-1)).isSome = true
  next : (instant.addDays? 1).isSome = true

/-- Whether the Monday of the week of an instant is in the calendar. -/
def HasMonday (instant : Instant) : Prop :=
  (instant.addDays? (-daysSinceMonday instant.dayNumber)).isSome = true

namespace HasNeighbours

variable {instant : Instant} (neighbours : instant.HasNeighbours)

include neighbours

theorem inCalendar : instant.InCalendar := by
  have previous := isSome_addDays?_iff.mp neighbours.previous
  have next := isSome_addDays?_iff.mp neighbours.next
  exact ⟨by omega, by omega⟩

theorem dayNumber_lt : instant.dayNumber < lastDayNumber := by
  have next := isSome_addDays?_iff.mp neighbours.next
  omega

theorem firstDayNumber_le {keyword : Keyword} (monday : keyword = .thisWeek → instant.HasMonday) :
    firstDayNumber ≤ keyword.startNumber instant.dayNumber := by
  cases keyword with
  | today => exact neighbours.inCalendar.1
  | yesterday => exact (isSome_addDays?_iff.mp neighbours.previous).1
  | thisWeek => exact (isSome_addDays?_iff.mp (monday rfl)).1
  | thisMonth => exact Keyword.firstDayNumber_le_startNumber neighbours.inCalendar.1

theorem reference?_eq {keyword : Keyword} {text : String} (isText : keyword.IsText text)
    (monday : keyword = .thisWeek → instant.HasMonday) :
    reference? text instant =
      some (keyword.refer (.ofDayNumber (keyword.startNumber instant.dayNumber))) := by
  rw [isText.reference?_eq, Keyword.resolve_eq keyword neighbours.inCalendar,
    if_pos (neighbours.firstDayNumber_le monday)]

end HasNeighbours

end Instant

/-- The window of the times that are equal to a date text. -/
def equalWindow? (text : String) (now : Instant) : Option Window :=
  (reference? text now).bind (Window.ofReference? .equals)

/-- A keyword that names a day stands for the time up to the next day. -/
theorem Instant.HasNeighbours.equalWindow?_eq {now : Instant} (neighbours : now.HasNeighbours)
    {keyword : Keyword} {text : String} (isText : keyword.IsText text)
    (isDay : ∀ start, keyword.refer start = .day start) :
    equalWindow? text now = some ⟨.included (.ofDayNumber (keyword.startNumber now.dayNumber)),
      .excluded (.ofDayNumber (keyword.startNumber now.dayNumber + 1))⟩ := by
  have noWeek : keyword = .thisWeek → now.HasMonday := by
    rintro rfl
    cases isDay default
  have inFront := neighbours.firstDayNumber_le noWeek
  have notBehind := keyword.startNumber_le now.dayNumber
  have last := neighbours.dayNumber_lt
  rw [equalWindow?, neighbours.reference?_eq isText noWeek, isDay, Option.bind_some, Window.ofReference?,
    addDays?_ofDayNumber, if_pos ⟨by omega, by omega⟩]
  rfl

/-- What the keywords mean at a time, however they are written. -/
structure FollowsClock (now : Instant) : Prop where
  /-- The clock is in the window of today. -/
  today : ∀ text, Keyword.today.IsText text →
    ∃ window, equalWindow? text now = some window ∧ window.contains now = true
  /-- The window of yesterday ends where that of today starts. -/
  yesterday : ∀ text other, Keyword.yesterday.IsText text → Keyword.today.IsText other →
    ∃ first second seam, equalWindow? text now = some first ∧ equalWindow? other now = some second ∧
      first.stop = .excluded seam ∧ second.start = .included seam
  /-- A week starts with the last Monday, if there is one in the calendar. -/
  thisWeek : now.HasMonday → ∀ text, Keyword.thisWeek.IsText text →
    ∃ monday, reference? text now = some (.instant (.ofDayNumber monday)) ∧
      daysSinceMonday monday = 0 ∧ (Instant.ofDayNumber monday).notAfter now = true ∧
      now.before (.ofDayNumber (monday + 7)) = true
  /-- A month starts with the first moment of its first day. -/
  thisMonth : ∀ text, Keyword.thisMonth.IsText text →
    ∃ moment, reference? text now = some (.instant moment) ∧
      moment.IsFirstOf now.day.firstOfMonth ∧ moment.notAfter now = true

theorem Day.IsDate.firstOfMonth {day : Day} (isDate : day.IsDate) : day.firstOfMonth.IsDate :=
  ⟨isDate.month, Nat.le_refl 1, isDate.day.1.trans isDate.day.2⟩

theorem Instant.HasNeighbours.followsClock {now : Instant} (neighbours : now.HasNeighbours) :
    FollowsClock now where
  today := by
    intro text isText
    refine ⟨_, neighbours.equalWindow?_eq isText fun _ => rfl, ?_⟩
    rw [Window.contains, Bool.and_eq_true]
    exact ⟨(ofDayNumber_notAfter _ now).mpr (Int.le_refl _),
      (before_ofDayNumber _ now).mpr (Int.lt_succ _)⟩
  yesterday := by
    intro text other isText isToday
    refine ⟨_, _, .ofDayNumber now.dayNumber, neighbours.equalWindow?_eq isText fun _ => rfl,
      neighbours.equalWindow?_eq isToday fun _ => rfl, ?_, rfl⟩
    rw [Keyword.startNumber, Int.sub_add_cancel]
  thisWeek := by
    intro monday text isText
    refine ⟨_, neighbours.reference?_eq isText fun _ => monday, ?_, ?_, ?_⟩
    · simp only [Keyword.startNumber, daysSinceMonday]
      omega
    · rw [ofDayNumber_notAfter]
      exact Keyword.thisWeek.startNumber_le _
    · rw [before_ofDayNumber]
      simp only [Keyword.startNumber, daysSinceMonday]
      omega
  thisMonth := by
    intro text isText
    refine ⟨_, neighbours.reference?_eq isText fun isWeek => absurd isWeek (by decide), ?_, ?_⟩
    · exact isFirstOf_ofDay (Day.isDate_ofNumber now.dayNumber).firstOfMonth
    · rw [ofDayNumber_notAfter]
      exact Keyword.thisMonth.startNumber_le _

/-- The keywords follow the clock where the days around it are in the calendar: the clock is in the
window of today, which starts where that of yesterday ends, and its week and its month have started
before it.  When the clock goes on, no keyword goes back.  For the week, its Monday has to be in the
calendar as well. -/
theorem keywords_follow_clock {now : Instant} (neighbours : now.HasNeighbours) :
    FollowsClock now ∧
      ∀ later : Instant, later.InCalendar → now.notAfter later = true →
        ∀ (keyword : Keyword) (text : String), keyword.IsText text →
          (keyword = .thisWeek → now.HasMonday) → ∃ first second,
            reference? text now = some first ∧ reference? text later = some second ∧
            first.start.notAfter second.start = true := by
  refine ⟨neighbours.followsClock, ?_⟩
  intro later laterInCalendar ordered keyword text isText monday
  have mono := keyword.startNumber_mono (Instant.dayNumber_le ordered)
  have inFront := (neighbours.firstDayNumber_le monday).trans mono
  have atLater := (isText.reference?_eq later).trans
    ((Keyword.resolve_eq keyword laterInCalendar).trans (if_pos inFront))
  refine ⟨_, _, neighbours.reference?_eq isText monday, atLater, ?_⟩
  rw [Keyword.start_refer, Keyword.start_refer, Instant.ofDayNumber_notAfter,
    Instant.dayNumber_ofDayNumber]
  exact mono

/-- The leap second at the end of 2016 is still in its day, and no month starts earlier after it. -/
theorem leap_second_is_today :
    (∃ window, equalWindow? " Today " ⟨1483228799, 1500000000⟩ = some window ∧
        window.contains ⟨1483228799, 1500000000⟩ = true) ∧
      ∃ first second, reference? "this-month" ⟨1483228799, 1500000000⟩ = some first ∧
        reference? "this-month" ⟨1483228800, 0⟩ = some second ∧
        first.start.notAfter second.start = true := by
  have neighbours : (⟨1483228799, 1500000000⟩ : Instant).HasNeighbours :=
    ⟨by decide, by decide⟩
  have isToday : Keyword.today.IsText " Today " := by
    unfold Keyword.IsText
    decide +kernel
  have follows := keywords_follow_clock neighbours
  exact ⟨follows.1.today _ isToday,
    follows.2 ⟨1483228800, 0⟩ (by decide) (by decide) .thisMonth _
      (Keyword.isText_word .thisMonth) nofun⟩

end Time
end Commonplace
