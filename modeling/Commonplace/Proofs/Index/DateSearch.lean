import Commonplace.Proofs.Index.Agreement
import Commonplace.Proofs.Index.Selection
import Commonplace.Proofs.Time.Windows

namespace Commonplace

/-!
# Dates in whole seconds

An index forgets what a date has beyond its whole second.  A window that starts and stops where
seconds do cannot tell the two apart, if it contains its start but not its stop.  The windows of
days and of ranges are of this kind, and so are some of those of instants that are whole seconds.
-/

namespace Time

/-- Whether a window starts with a second, stops in front of another, and is open where it does
not. -/
structure Window.InSeconds (window : Window) : Prop where
  start : window.start = .unbounded ∨ ∃ second, window.start = .included ⟨second, 0⟩
  stop : window.stop = .unbounded ∨ ∃ second, window.stop = .excluded ⟨second, 0⟩

namespace Window

/-- A window of seconds contains an instant just when it contains the second. -/
theorem InSeconds.contains_eq {window : Window} (inSeconds : window.InSeconds) (instant : Instant) :
    window.contains ⟨instant.seconds, 0⟩ = window.contains instant := by
  rcases window with ⟨start, stop⟩
  rcases inSeconds with ⟨starts, stops⟩
  dsimp only at starts stops
  have above : start.admitsAbove ⟨instant.seconds, 0⟩ = start.admitsAbove instant := by
    rcases starts with rfl | ⟨second, rfl⟩
    · rfl
    · simp [Bound.admitsAbove, Instant.notAfter, Instant.before]
  have below : stop.admitsBelow ⟨instant.seconds, 0⟩ = stop.admitsBelow instant := by
    rcases stops with rfl | ⟨second, rfl⟩
    · rfl
    · simp [Bound.admitsBelow, Instant.before]
  rw [contains, contains, above, below]

theorem inSeconds_wholeDay {instant : Instant} {window : Window}
    (found : wholeDay? instant = some window) : window.InSeconds := by
  rw [wholeDay?, Instant.startOfDay, Instant.addDays?_ofDayNumber] at found
  rcases Option.map_eq_some_iff.mp found with ⟨next, isNext, rfl⟩
  rw [Option.ite_none_right_eq_some] at isNext
  rw [← Option.some.inj isNext.2]
  exact ⟨.inr ⟨_, rfl⟩, .inr ⟨_, rfl⟩⟩

/-- A window through a day is one of seconds, if its start is a whole second. -/
theorem inSeconds_throughDay {start last : Instant} {window : Window}
    (isWhole : start.nanoseconds = 0) (found : throughDay? start last = some window) :
    window.InSeconds := by
  rcases Option.map_eq_some_iff.mp found with ⟨day, isDay, rfl⟩
  have isStart : start = ⟨start.seconds, 0⟩ := by rw [← isWhole]
  exact ⟨.inr ⟨start.seconds, congrArg Bound.included isStart⟩, (inSeconds_wholeDay isDay).stop⟩

/-- The windows of the comparisons with a day are windows of seconds. -/
theorem inSeconds_day {comparison : Comparison} {number : Int} {window : Window}
    (found : ofReference? comparison (.day (.ofDayNumber number)) = some window) :
    window.InSeconds := by
  rw [ofReference?, Instant.addDays?_ofDayNumber] at found
  rcases Option.bind_eq_some_iff.mp found with ⟨next, isNext, ofSpan⟩
  rw [Option.ite_none_right_eq_some] at isNext
  rw [← Option.some.inj isNext.2] at ofSpan
  cases comparison with
  | greater =>
      cases ofSpan
      exact ⟨.inr ⟨_, rfl⟩, .inl rfl⟩
  | atLeast =>
      cases ofSpan
      exact ⟨.inr ⟨_, rfl⟩, .inl rfl⟩
  | less =>
      cases ofSpan
      exact ⟨.inl rfl, .inr ⟨_, rfl⟩⟩
  | atMost =>
      cases ofSpan
      exact ⟨.inl rfl, .inr ⟨_, rfl⟩⟩
  | equals =>
      cases ofSpan
      exact ⟨.inr ⟨_, rfl⟩, .inr ⟨_, rfl⟩⟩
  | startsWith => cases ofSpan
  | endsWith => cases ofSpan

/-- So are some of the windows of the comparisons with a whole second. -/
theorem inSeconds_instant {comparison : Comparison} {moment : Instant} {window : Window}
    (isWhole : moment.nanoseconds = 0)
    (listed : comparison ∈ [Comparison.atLeast, .less, .equals])
    (found : ofReference? comparison (.instant moment) = some window) : window.InSeconds := by
  have isMoment : moment = ⟨moment.seconds, 0⟩ := by rw [← isWhole]
  simp only [List.mem_cons, List.not_mem_nil, or_false] at listed
  rcases listed with rfl | rfl | rfl
  · cases found
    exact ⟨.inr ⟨moment.seconds, congrArg Bound.included isMoment⟩, .inl rfl⟩
  · cases found
    exact ⟨.inl rfl, .inr ⟨moment.seconds, congrArg Bound.excluded isMoment⟩⟩
  · exact inSeconds_wholeDay found

end Window
end Time

namespace Index

/-- Whether an end of a window can be held. -/
def HoldableBound : Time.Bound -> Prop
  | .included instant | .excluded instant => Holdable instant
  | .unbounded => True

/-- Whether an index can hold both ends of a window. -/
structure Reaches (window : Time.Window) : Prop where
  start : HoldableBound window.start
  stop : HoldableBound window.stop

theorem heldWindow_of_inSeconds {window : Time.Window} (inSeconds : window.InSeconds)
    (reaches : Reaches window) : HeldWindow window := by
  rcases window with ⟨start, stop⟩
  rcases inSeconds with ⟨starts, stops⟩
  rcases reaches with ⟨reachesStart, reachesStop⟩
  dsimp only at starts stops reachesStart reachesStop
  constructor
  · rcases starts with rfl | ⟨second, rfl⟩
    · trivial
    · exact ⟨rfl, reachesStart⟩
  · rcases stops with rfl | ⟨second, rfl⟩
    · trivial
    · exact ⟨rfl, reachesStop⟩

/-- Although a date is held without its part of a second, it is found to lie in a window of seconds
just when it does. -/
theorem withinHeld_of_inSeconds {window : Time.Window} (inSeconds : window.InSeconds)
    (reaches : Reaches window) {instant : Time.Instant} (holdable : Holdable instant) :
    withinHeld window (heldSecond instant) = window.contains instant := by
  have held := heldWindow_of_inSeconds inSeconds reaches
  rw [withinHeld, map_heldInstant_of_heldBound held.start, map_heldInstant_of_heldBound held.stop,
    heldSecond_eq holdable.1 holdable.2]
  exact inSeconds.contains_eq instant

/-- Whether a comparison with what a date text names does not depend on parts of a second. -/
def IsCoarse (comparison : Comparison) : Time.Reference -> Prop
  | .day _ => True
  | .instant moment =>
      moment.nanoseconds = 0 ∧ comparison ∈ [Comparison.atLeast, .less, .equals]

/-- Whether an expression on a date finds the notes whose date lies in a window.  A note without the
date is never found, and no statement is made on dates and windows that cannot be held. -/
def FindsByDate [PatternEngine] (now : Time.Instant) (expression : Expr) (field : Field)
    (window : Time.Window) :
    Prop :=
  ∃ found, criterion now expression = .ok found ∧
    ∀ (contents : Contents) (note : Note), note ∈ contents.notes →
      (note.date field = none → note ∉ selected contents.notes found) ∧
      ∀ instant, note.date field = some instant → Holdable instant → Reaches window →
        (note ∈ selected contents.notes found ↔ window.contains instant = true)

section Search

variable {now : Time.Instant} {name : String}

theorem windowOf_eq {comparison : Comparison} {value : String} {reference : Time.Reference}
    {window : Time.Window} (resolved : Time.reference? value now = some reference)
    (hasWindow : Time.Window.ofReference? comparison reference = some window) :
    Note.windowOf now name comparison value = .ok window := by
  unfold Note.windowOf
  simp only [resolved, hasWindow]

theorem rangeOf_eq {start stop : String} {first last : Time.Reference} {window : Time.Window}
    (resolved : Time.reference? start now = some first)
    (resolvedStop : Time.reference? stop now = some last)
    (hasWindow : Time.Window.throughDay? first.start last.start = some window) :
    Note.rangeOf now name start stop = .ok window := by
  unfold Note.rangeOf Note.instantOf
  simp only [resolved, resolvedStop, bind, Except.bind, hasWindow]

variable {slot : DateSlot} (isSlot : dateSlot? (Field.ofName name) = some slot)

include isSlot

theorem dateSlot_eq (value : String) : dateSlot name value = .ok slot := by
  unfold dateSlot
  rw [isSlot]

theorem criterion_date [PatternEngine] {comparison : Comparison} {value : String}
    {window : Time.Window} (windowOf : Note.windowOf now name comparison value = .ok window) :
    criterion now (.date name comparison value) = .ok (.dated slot window) :=
  bind_eq_ok.mpr ⟨slot, dateSlot_eq isSlot value, bind_eq_ok.mpr ⟨window, windowOf, rfl⟩⟩

theorem criterion_field_of_isDate [PatternEngine] (comparison : Comparison) (value : String) :
    criterion now (.field name comparison value) = criterion now (.date name comparison value) := by
  change fieldCriterion now name comparison value = _
  unfold fieldCriterion
  dsimp only
  rw [isDate_of_dateSlot? isSlot]
  rfl

theorem criterion_range [PatternEngine] {start stop : String} {window : Time.Window}
    (rangeOf : Note.rangeOf now name start stop = .ok window) :
    criterion now (.range name start stop) = .ok (.dated slot window) :=
  bind_eq_ok.mpr ⟨slot, dateSlot_eq isSlot start, bind_eq_ok.mpr ⟨window, rangeOf, rfl⟩⟩

theorem second_eq (note : Note) :
    slot.second note = (note.date (Field.ofName name)).map heldSecond := by
  generalize Field.ofName name = field at isSlot
  cases field with
  | created | modified =>
      cases isSlot
      rfl
  | path | title | body | lead | tags | checksum | metadata => cases isSlot

theorem findsByDate_of_dated [PatternEngine] {expression : Expr} {window : Time.Window}
    (translated : criterion now expression = .ok (.dated slot window))
    (inSeconds : window.InSeconds) :
    FindsByDate now expression (Field.ofName name) window := by
  refine ⟨_, translated, fun contents note listed => ⟨?_, ?_⟩⟩
  · intro none
    rw [mem_selected, Criterion.selects, second_eq isSlot, none]
    simp
  · intro instant dated holdable reaches
    rw [mem_selected, and_iff_right listed, Criterion.selects, second_eq isSlot, dated,
      Option.map_some, Option.any_some, withinHeld_of_inSeconds inSeconds reaches holdable]

end Search

/-- Searching for dates loses nothing by holding them in whole seconds.  The comparisons with a day,
the ranges that start with a whole second, and three comparisons with a whole second find the notes
whose date lies in the window, whatever part of a second it has, as far as the index can hold the
date and the ends of the window. -/
theorem date_search_is_exact [PatternEngine] (now : Time.Instant) {name : String}
    (isDate : (Field.ofName name).isDate = true) :
    (∀ comparison value reference window, Time.reference? value now = some reference →
      Time.Window.ofReference? comparison reference = some window → IsCoarse comparison reference →
      ∀ expression ∈ [Expr.date name comparison value, .field name comparison value],
        FindsByDate now expression (Field.ofName name) window) ∧
    ∀ start stop first last window, Time.reference? start now = some first →
      first.start.nanoseconds = 0 → Time.reference? stop now = some last →
      Time.Window.throughDay? first.start last.start = some window →
      FindsByDate now (.range name start stop) (Field.ofName name) window := by
  rcases dateSlot?_of_isDate isDate with ⟨slot, isSlot⟩
  constructor
  · intro comparison value reference window resolved hasWindow coarse expression listed
    have translated := criterion_date isSlot (windowOf_eq resolved hasWindow)
    have inSeconds : window.InSeconds := by
      cases reference with
      | day start =>
          rcases Time.exists_number_of_day resolved with ⟨number, rfl, _⟩
          exact Time.Window.inSeconds_day hasWindow
      | instant moment => exact Time.Window.inSeconds_instant coarse.1 coarse.2 hasWindow
    apply findsByDate_of_dated isSlot _ inSeconds
    simp only [List.mem_cons, List.not_mem_nil, or_false] at listed
    rcases listed with rfl | rfl
    · exact translated
    · rw [criterion_field_of_isDate isSlot, translated]
  · intro start stop first last window resolved isWhole resolvedStop hasWindow
    exact findsByDate_of_dated isSlot
      (criterion_range isSlot (rangeOf_eq resolved resolvedStop hasWindow))
      (Time.Window.inSeconds_throughDay isWhole hasWindow)

/-- A note with a date. -/
def createdNote (date : Time.Instant) : Note :=
  { Note.ofPath "a.md" with created := some date }

/-- An index with such a note. -/
def createdNotes (date : Time.Instant) : Contents :=
  ⟨[createdNote date], [createdNote date]⟩

theorem created_isDate : (Field.ofName "created").isDate = true := by
  decide +kernel

open scoped PatternEngine

/-- The last nanosecond in front of ten o'clock is found in front of ten o'clock, and in the range
through its day. -/
theorem last_nanosecond_is_found :
    (∃ found, criterion ⟨0, 0⟩ (.field "created" .less "2024-05-01T10:00:00Z") = .ok found ∧
      createdNote ⟨1714557599, 999999999⟩ ∈
        selected (createdNotes ⟨1714557599, 999999999⟩).notes found) ∧
    ∃ found, criterion ⟨0, 0⟩ (.range "created" "2024-05-01" "2024-05-01") = .ok found ∧
      createdNote ⟨1714557599, 999999999⟩ ∈
        selected (createdNotes ⟨1714557599, 999999999⟩).notes found := by
  have finds := date_search_is_exact ⟨0, 0⟩ created_isDate
  have created : Field.ofName "created" = .created := by decide +kernel
  have held : Holdable ⟨1714557599, 999999999⟩ := by decide
  have listed : createdNote ⟨1714557599, 999999999⟩ ∈
      (createdNotes ⟨1714557599, 999999999⟩).notes := List.mem_singleton_self _
  constructor
  · have tenOClock : Time.reference? "2024-05-01T10:00:00Z" ⟨0, 0⟩ =
        some (.instant ⟨1714557600, 0⟩) := by decide +kernel
    have window : Time.Window.ofReference? .less (.instant ⟨1714557600, 0⟩) =
        some ⟨.unbounded, .excluded ⟨1714557600, 0⟩⟩ := by decide
    rcases finds.1 _ _ _ _ tenOClock window ⟨rfl, by decide⟩ _
      (List.mem_cons_of_mem _ (List.mem_singleton_self _)) with ⟨found, translated, exactly⟩
    rw [created] at exactly
    have reaches : Reaches ⟨.unbounded, .excluded ⟨1714557600, 0⟩⟩ :=
      ⟨trivial, (by decide : Holdable ⟨1714557600, 0⟩)⟩
    exact ⟨found, translated, ((exactly _ _ listed).2 _ rfl held reaches).mpr (by decide)⟩
  · have mayDay : Time.reference? "2024-05-01" ⟨0, 0⟩ = some (.day ⟨1714521600, 0⟩) := by
      decide +kernel
    have window : Time.Window.throughDay? ⟨1714521600, 0⟩ ⟨1714521600, 0⟩ =
        some ⟨.included ⟨1714521600, 0⟩, .excluded ⟨1714608000, 0⟩⟩ := by decide
    rcases finds.2 _ _ _ _ _ mayDay rfl mayDay window with ⟨found, translated, exactly⟩
    rw [created] at exactly
    have reaches : Reaches ⟨.included ⟨1714521600, 0⟩, .excluded ⟨1714608000, 0⟩⟩ :=
      ⟨(by decide : Holdable ⟨1714521600, 0⟩), (by decide : Holdable ⟨1714608000, 0⟩)⟩
    exact ⟨found, translated, ((exactly _ _ listed).2 _ rfl held reaches).mpr (by decide)⟩

/-- A leap second is held as the second in front of it, so a range that starts with one finds what
comes before it. -/
theorem leap_second_is_searched_as_another :
    ∃ window found,
      Note.rangeOf ⟨0, 0⟩ "created" "2016-12-31T23:59:60Z" "2024-01-01" = .ok window ∧
      criterion ⟨0, 0⟩ (.range "created" "2016-12-31T23:59:60Z" "2024-01-01") = .ok found ∧
      Holdable ⟨1483228799, 500000000⟩ ∧
      window.contains ⟨1483228799, 500000000⟩ = false ∧
      found.selects (createdNote ⟨1483228799, 500000000⟩) = true := by
  have slot : dateSlot? (Field.ofName "created") = some .created := by decide +kernel
  have newYear : Time.reference? "2024-01-01" ⟨0, 0⟩ = some (.day ⟨1704067200, 0⟩) := by
    decide +kernel
  have leapSecond : Time.reference? "2016-12-31T23:59:60Z" ⟨0, 0⟩ =
      some (.instant ⟨1483228799, 1000000000⟩) := by decide +kernel
  have afterLeap : Time.Window.throughDay? ⟨1483228799, 1000000000⟩ ⟨1704067200, 0⟩ =
      some ⟨.included ⟨1483228799, 1000000000⟩, .excluded ⟨1704153600, 0⟩⟩ := by decide
  have leap : Note.rangeOf ⟨0, 0⟩ "created" "2016-12-31T23:59:60Z" "2024-01-01" =
      .ok ⟨.included ⟨1483228799, 1000000000⟩, .excluded ⟨1704153600, 0⟩⟩ :=
    rangeOf_eq leapSecond newYear afterLeap
  exact ⟨_, _, leap, criterion_range slot leap, by decide, by decide, by decide +kernel⟩

end Index
end Commonplace
