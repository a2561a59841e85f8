import Commonplace.Proofs.Text.Ascii
import Commonplace.Proofs.Time.Calendar
import Commonplace.Proofs.Time.Digits
import Commonplace.Time.Reference

namespace Commonplace
namespace Time

/-!
# Written dates are read back

A date text is tried as one form after the other.  A date that is written in full in one of the
notations is not read as an earlier form, because another separator stands behind its first number,
or because two digits of its year are left over.
-/

/-- A day in one of the notations of a date, with zeros in front of its numbers. -/
def Day.written (day : Day) (form : DayOrder × Char) : String :=
  let year := padded 4 day.year.toNat
  let month := padded 2 day.month
  let dayOfMonth := padded 2 day.day
  let separator := String.singleton form.2
  match form.1 with
  | .yearFirst => year ++ separator ++ month ++ separator ++ dayOfMonth
  | .dayFirst => dayOfMonth ++ separator ++ month ++ separator ++ year
  | .monthFirst => month ++ separator ++ dayOfMonth ++ separator ++ year

/-- Days of the calendar in years of at most four digits. -/
structure Day.IsPlain (day : Day) : Prop where
  date : day.IsDate
  years : 0 ≤ day.year ∧ day.year ≤ 9999

namespace Day.IsPlain

variable {day : Day}

theorem isValid (plain : day.IsPlain) : day.isValid = true := by
  have years := plain.years
  rw [isValid_iff, firstYear, lastYear]
  exact ⟨by omega, plain.date⟩

theorem of?_eq (plain : day.IsPlain) : Day.of? day.year day.month day.day = some day :=
  if_pos plain.isValid

theorem toNat_year (plain : day.IsPlain) : (day.year.toNat : Int) = day.year :=
  Int.toNat_of_nonneg plain.years.1

theorem monthLength_le (year : Int) (month : Nat) : monthLength year month ≤ 31 := by
  unfold monthLength
  split
  · split <;> decide
  all_goals decide

theorem writes_year (plain : day.IsPlain) :
    Writes (padded 4 day.year.toNat).toList 4 day.year.toNat := by
  have years := plain.years
  exact writes_padded (by decide) (by omega)

theorem writes_month (plain : day.IsPlain) : Writes (padded 2 day.month).toList 2 day.month := by
  have month := plain.date.month
  exact writes_padded (by decide) (by omega)

theorem writes_day (plain : day.IsPlain) : Writes (padded 2 day.day).toList 2 day.day := by
  have inMonth := plain.date.day
  have short := monthLength_le day.year day.month
  exact writes_padded (by decide) (by omega)

theorem readYear (plain : day.IsPlain) (rest : List Char) :
    readYear ((padded 4 day.year.toNat).toList ++ rest) = some (day.year, rest) := by
  rw [plain.writes_year.readYear (by decide) (Nat.le_refl 4) (.inl rfl), plain.toNat_year]

/-- A written day is read back by a reader of its own notation. -/
theorem readDay_written (plain : day.IsPlain) (form : DayOrder × Char) (rest : List Char) :
    readDay form.1 form.2 ((day.written form).toList ++ rest) = some (day, rest) := by
  rcases form with ⟨order, separator⟩
  cases order
  all_goals
    simp [readDay, written, plain.readYear, plain.writes_month.readShort,
      plain.writes_day.readShort, readChar_cons, plain.of?_eq]

end Day.IsPlain

/-! ## Other forms -/

/-- A reader goes on with what a first reader has found. -/
theorem bind_eq_of_some {first second : Type} {found : Option first} {value : first}
    {next : first -> Option second} {result : Option second} (isFound : found = some value)
    (goesOn : next value = result) : (found >>= next) = result := by
  rw [isFound]
  exact goesOn

theorem bind_eq_none {first second : Type} {found : Option first}
    {next : first -> Option second} (isNone : found = none) : (found >>= next) = none := by
  rw [isNone]
  rfl

theorem whole?_eq_none {value : Type} {reader : Reader value} {characters : List Char}
    (more : ∀ result rest, reader characters = some (result, rest) → rest ≠ []) :
    whole? reader characters = none := by
  unfold whole?
  split
  · rename_i result found
    exact absurd rfl (more result [] found)
  · rfl

section Separators

variable {digits rest : List Char} {number : Nat} {separator other : Char}

/-- A date is not read with another separator behind its first number. -/
theorem readDay_of_ne (order : DayOrder) (writes : Writes digits 2 number)
    (noDigit : other.isDigit = false) (different : other ≠ separator) :
    readDay order separator (digits ++ other :: rest) = none := by
  have stops : ∀ head ∈ (other :: rest).head?, head.isDigit = false := by
    rintro head ⟨⟩
    exact noDigit
  cases order
  all_goals
    simp [readDay, writes.readShort, writes.readYear (by decide) (by decide) (.inr stops),
      readChar_cons_of_ne different]

/-- Of a year that is read as a day, two digits are left over. -/
theorem rest_of_yearLast {second third : List Char} {month year : Nat}
    (writes : Writes digits 2 number) (writesSecond : Writes second 2 month)
    (writesThird : Writes third 4 year) (noDigit : separator.isDigit = false) {day : Day}
    (read : readDay .yearFirst separator
      (digits ++ separator :: (second ++ separator :: third)) = some (day, rest)) :
    rest = third.drop 2 := by
  have stops : ∀ head ∈ (separator :: (second ++ separator :: third)).head?,
      head.isDigit = false := by
    rintro head ⟨⟩
    exact noDigit
  have firstTwo : Writes (third.take 2) 2 (digitsValue (third.take 2)) := by
    refine ⟨?_, fun character member => writesThird.digit character (List.mem_of_mem_take member),
      rfl⟩
    rw [List.length_take, writesThird.length]
    rfl
  have dayOfMonth : readShort (third.take 2 ++ third.drop 2) =
      some (digitsValue (third.take 2), third.drop 2) := firstTwo.readShort
  rw [List.take_append_drop] at dayOfMonth
  rw [readDay, writes.readYear (by decide) (by decide) (.inr stops)] at read
  simp only [readChar_cons, writesSecond.readShort, dayOfMonth, bind, Option.bind_some,
    Option.map_eq_some_iff] at read
  rcases read with ⟨_, _, same⟩
  exact (Prod.mk.inj same).2.symm

end Separators

section Days

variable {day : Day} (plain : day.IsPlain)

include plain

omit plain in
theorem toList_written (separator : Char) :
    (day.written (.yearFirst, separator)).toList = (padded 4 day.year.toNat).toList ++
      separator :: ((padded 2 day.month).toList ++ separator :: (padded 2 day.day).toList) ∧
    (day.written (.dayFirst, separator)).toList = (padded 2 day.day).toList ++
      separator :: ((padded 2 day.month).toList ++ separator :: (padded 4 day.year.toNat).toList) ∧
    (day.written (.monthFirst, separator)).toList = (padded 2 day.month).toList ++
      separator :: ((padded 2 day.day).toList ++ separator :: (padded 4 day.year.toNat).toList) := by
  simp [Day.written]

/-- A date is no timestamp. -/
theorem readTimestamp_written {form : DayOrder × Char} (listed : form ∈ dayNotations) :
    readTimestamp (day.written form).toList = none := by
  have shortDay (separator : Char) (noDigit : separator.isDigit = false) (rest : List Char) :
      readFixed 4 ((padded 2 day.day).toList ++ separator :: rest) = none :=
    plain.writes_day.readFixed_of_lt (by decide) (by rintro head ⟨⟩; exact noDigit)
  have shortMonth (separator : Char) (noDigit : separator.isDigit = false) (rest : List Char) :
      readFixed 4 ((padded 2 day.month).toList ++ separator :: rest) = none :=
    plain.writes_month.readFixed_of_lt (by decide) (by rintro head ⟨⟩; exact noDigit)
  have wholeDay : readFixed 2 ((padded 2 day.day).toList ++ []) = some (day.day, []) :=
    plain.writes_day.readFixed
  rw [List.append_nil] at wholeDay
  simp only [dayNotations, List.mem_cons, List.not_mem_nil, or_false] at listed
  rcases listed with rfl | rfl | rfl | rfl
  · rw [(toList_written _).1, readTimestamp]
    refine bind_eq_of_some plain.writes_year.readFixed ?_
    refine bind_eq_of_some (readChar_cons _ _) ?_
    refine bind_eq_of_some plain.writes_month.readFixed ?_
    refine bind_eq_of_some (readChar_cons _ _) ?_
    refine bind_eq_of_some wholeDay ?_
    refine bind_eq_of_some (plain.toNat_year ▸ plain.of?_eq) ?_
    rfl
  · rw [(toList_written _).1, readTimestamp]
    refine bind_eq_of_some plain.writes_year.readFixed ?_
    exact bind_eq_none (readChar_cons_of_ne (by decide) _)
  · rw [(toList_written _).2.1, readTimestamp, shortDay _ (by decide)]
    rfl
  · rw [(toList_written _).2.2, readTimestamp, shortMonth _ (by decide)]
    rfl

/-- A date with its year in front is not read with another separator. -/
theorem readDay_year_of_ne {separator other : Char} (different : other ≠ separator)
    (rest : List Char) :
    readDay .yearFirst separator ((padded 4 day.year.toNat).toList ++ other :: rest) = none :=
  bind_eq_of_some (plain.readYear _) (bind_eq_none (readChar_cons_of_ne different _))

theorem readDay_own (form : DayOrder × Char) :
    readDay form.1 form.2 (day.written form).toList = some (day, []) := by
  have read := plain.readDay_written form []
  rw [List.append_nil] at read
  exact read

/-- The digits that are left over when a year is read as a day. -/
theorem rest_of_dayFirst {found : Day} {rest : List Char}
    (read : readDay .yearFirst '-' (day.written (.dayFirst, '-')).toList = some (found, rest)) :
    rest = (padded 4 day.year.toNat).toList.drop 2 := by
  rw [(toList_written _).2.1] at read
  exact rest_of_yearLast plain.writes_day plain.writes_month plain.writes_year (by decide) read

theorem rest_of_monthFirst {found : Day} {rest : List Char}
    (read : readDay .yearFirst '/' (day.written (.monthFirst, '/')).toList = some (found, rest)) :
    rest = (padded 4 day.year.toNat).toList.drop 2 := by
  rw [(toList_written _).2.2] at read
  exact rest_of_yearLast plain.writes_month plain.writes_day plain.writes_year (by decide) read

theorem exists_drop_year : ∃ digit others,
    (padded 4 day.year.toNat).toList.drop 2 = digit :: others ∧ digit.isDigit = true := by
  have length := congrArg (· - 2) plain.writes_year.length
  rw [← List.length_drop] at length
  rcases List.exists_cons_of_length_eq_add_one length with ⟨digit, others, same⟩
  refine ⟨digit, others, same, plain.writes_year.digit digit (List.mem_of_mem_drop (i := 2) ?_)⟩
  rw [same]
  exact List.mem_cons_self

/-- A date has no time of day. -/
theorem readLocal_written {form : DayOrder × Char} (listed : form ∈ dayNotations) :
    readLocal (day.written form).toList = none := by
  simp only [dayNotations, List.mem_cons, List.not_mem_nil, or_false] at listed
  rcases listed with rfl | rfl | rfl | rfl
  · have own := readDay_own plain (.yearFirst, '-')
    rw [readLocal]
    exact bind_eq_of_some own rfl
  · rw [readLocal, (toList_written _).1]
    apply bind_eq_none
    exact readDay_year_of_ne plain (by decide) _
  · cases read : readDay .yearFirst '-' (day.written (.dayFirst, '-')).toList with
    | none => exact bind_eq_none read
    | some found =>
        rcases exists_drop_year plain with ⟨digit, others, left, isDigit⟩
        refine bind_eq_of_some read (bind_eq_none ?_)
        rw [rest_of_dayFirst plain read, left]
        exact readChar_cons_of_ne (by rintro rfl; cases isDigit) _
  · rw [readLocal, (toList_written _).2.2]
    apply bind_eq_none
    exact readDay_of_ne _ plain.writes_month (by decide) (by decide)

/-- A written day is read in its own notation. -/
theorem absolute?_written {form : DayOrder × Char} (listed : form ∈ dayNotations) :
    absolute? (day.written form).toList = some (.day (.ofDay day)) := by
  have own : whole? (readDay form.1 form.2) (day.written form).toList = some day := by
    rw [whole?, readDay_own plain]
  have found : (dayNotations.findSome? fun other =>
      whole? (readDay other.1 other.2) (day.written form).toList) = some day := by
    simp only [dayNotations, List.mem_cons, List.not_mem_nil, or_false] at listed ⊢
    rcases listed with rfl | rfl | rfl | rfl
    · rw [List.findSome?_cons, own]
    · have first : whole? (readDay .yearFirst '-') (day.written (.yearFirst, '/')).toList =
          none := by
        rw [(toList_written _).1, whole?, readDay_year_of_ne plain (by decide)]
      rw [List.findSome?_cons, first, List.findSome?_cons, own]
    · have first : whole? (readDay .yearFirst '-') (day.written (.dayFirst, '-')).toList = none :=
        whole?_eq_none fun result rest read => by
          rcases exists_drop_year plain with ⟨digit, others, left, _⟩
          rw [rest_of_dayFirst plain read, left]
          exact List.cons_ne_nil _ _
      have second : whole? (readDay .yearFirst '/') (day.written (.dayFirst, '-')).toList =
          none := by
        rw [(toList_written _).2.1, whole?,
          readDay_of_ne _ plain.writes_day (by decide) (by decide)]
      rw [List.findSome?_cons, first, List.findSome?_cons, second, List.findSome?_cons, own]
    · have first : whole? (readDay .yearFirst '-') (day.written (.monthFirst, '/')).toList =
          none := by
        rw [(toList_written _).2.2, whole?,
          readDay_of_ne _ plain.writes_month (by decide) (by decide)]
      have second : whole? (readDay .yearFirst '/') (day.written (.monthFirst, '/')).toList =
          none :=
        whole?_eq_none fun result rest read => by
          rcases exists_drop_year plain with ⟨digit, others, left, _⟩
          rw [rest_of_monthFirst plain read, left]
          exact List.cons_ne_nil _ _
      have third : whole? (readDay .dayFirst '-') (day.written (.monthFirst, '/')).toList =
          none := by
        rw [(toList_written _).2.2, whole?,
          readDay_of_ne _ plain.writes_month (by decide) (by decide)]
      rw [List.findSome?_cons, first, List.findSome?_cons, second, List.findSome?_cons, third,
        List.findSome?_cons, own]
  rw [absolute?, whole?, readTimestamp_written plain listed, whole?,
    readLocal_written plain listed, found]
  rfl

end Days

/-! ## Timestamps -/

theorem Day.IsPlain.toList_text {day : Day} (plain : day.IsPlain) :
    day.text.toList = (day.written (.yearFirst, '-')).toList := by
  rw [Day.text, yearText, if_pos (by simpa using plain.years), (toList_written _).1]
  simp

namespace Instant

/-- The text of an instant up to its second, without a zone. -/
def localText (instant : Instant) : String :=
  let second := instant.secondOfDay
  instant.day.text ++ "T" ++ padded 2 (second / 3600) ++ ":" ++ padded 2 (second / 60 % 60) ++
    ":" ++ padded 2 (second % 60)

/-- The fraction of a second with a number of digits. -/
def fraction (instant : Instant) (count : Nat) : String :=
  if count = 0 then "" else "." ++ padded count (instant.nanoseconds / 10 ^ (9 - count))

/-- The timestamp of an instant with a number of digits in its fraction. -/
def timestamp (instant : Instant) (count : Nat) (zone : Zone) : String :=
  instant.localText ++ instant.fraction count ++ zone.text

/-- Whether a number of digits is enough for the fraction of a second. -/
def Suffices (instant : Instant) (count : Nat) : Prop :=
  count ≤ 9 ∧ 10 ^ (9 - count) ∣ instant.nanoseconds

/-- Instants in years of at most four digits, and not within a leap second. -/
structure IsPlain (instant : Instant) : Prop where
  years : 0 ≤ instant.day.year ∧ instant.day.year ≤ 9999
  noLeap : instant.nanoseconds < 1000000000

namespace IsPlain

variable {instant : Instant}

theorem day (plain : instant.IsPlain) : instant.day.IsPlain :=
  ⟨Day.isDate_ofNumber _, plain.years⟩

end IsPlain

theorem secondOfDay_lt (instant : Instant) : instant.secondOfDay < 86400 := by
  have same := instant.secondOfDay_eq
  omega

section Clock

variable (instant : Instant)

theorem writes_hour :
    Writes (padded 2 (instant.secondOfDay / 3600)).toList 2 (instant.secondOfDay / 3600) := by
  have less := instant.secondOfDay_lt
  exact writes_padded (by decide) (by omega)

theorem writes_minute : Writes (padded 2 (instant.secondOfDay / 60 % 60)).toList 2
    (instant.secondOfDay / 60 % 60) :=
  writes_padded (by decide) (by omega)

theorem writes_second :
    Writes (padded 2 (instant.secondOfDay % 60)).toList 2 (instant.secondOfDay % 60) :=
  writes_padded (by decide) (by omega)

/-- The day and the time of day of an instant tell the instant. -/
theorem instantOf?_eq (nanoseconds : Nat) :
    instantOf? instant.day (instant.secondOfDay / 3600) (instant.secondOfDay / 60 % 60)
      (instant.secondOfDay % 60) nanoseconds = some ⟨instant.seconds, nanoseconds⟩ := by
  have less := instant.secondOfDay_lt
  have onClock : instant.secondOfDay / 3600 < 24 ∧ instant.secondOfDay / 60 % 60 < 60 ∧
      instant.secondOfDay % 60 < 60 := by omega
  have seconds : instant.day.number * daySeconds +
      ((instant.secondOfDay / 3600 * 3600 + instant.secondOfDay / 60 % 60 * 60 +
        (instant.secondOfDay % 60 - 0) : Nat) : Int) = instant.seconds := by
    have ofDay := instant.secondOfDay_eq
    have ofNumber := instant.dayNumber_eq
    rw [Instant.day, Day.number_ofNumber, daySeconds]
    omega
  have noLeap : (instant.secondOfDay % 60 == 60) = false := by
    rw [beq_eq_false_iff_ne]
    omega
  rw [instantOf?, noLeap, if_pos (by simp; omega)]
  dsimp only
  rw [if_neg Bool.false_ne_true, seconds, Nat.zero_mul, Nat.add_zero]

end Clock

theorem writes_fraction {instant : Instant} (noLeap : instant.nanoseconds < 1000000000)
    {count : Nat} (enough : instant.Suffices count) (notNone : count ≠ 0) :
    Writes (padded count (instant.nanoseconds / 10 ^ (9 - count))).toList count
      (instant.nanoseconds / 10 ^ (9 - count)) := by
  apply writes_padded (Nat.pos_of_ne_zero notNone)
  apply Nat.div_lt_of_lt_mul
  rw [← Nat.pow_add, Nat.sub_add_cancel enough.1]
  exact noLeap

/-- The fraction of a second is read from enough digits, if a character that could not belong to it
follows. -/
theorem readFraction_fraction {instant : Instant} (noLeap : instant.nanoseconds < 1000000000)
    {count : Nat} (enough : instant.Suffices count) {head : Char} {rest : List Char}
    (noDigit : head.isDigit = false) (noPoint : head ≠ '.') :
    readFraction ((instant.fraction count).toList ++ head :: rest) =
      some (instant.nanoseconds, head :: rest) := by
  have whole := enough.2
  by_cases none : count = 0
  · have isZero : instant.nanoseconds = 0 := by
      rw [none] at whole
      exact Nat.eq_zero_of_dvd_of_lt whole noLeap
    rw [fraction, if_pos none, isZero, String.toList_empty, List.nil_append, readFraction]
    rintro _ ⟨⟩
    exact noPoint rfl
  · have writes := writes_fraction noLeap enough none
    have stops : ∀ next ∈ (head :: rest).head?, next.isDigit = false := by
      rintro _ ⟨⟩
      exact noDigit
    have digits := writes.takeWhile stops
    have others := writes.dropWhile stops
    have notEmpty := List.isEmpty_eq_false_iff.mpr (writes.ne_nil (Nat.pos_of_ne_zero none))
    have kept : (padded count (instant.nanoseconds / 10 ^ (9 - count))).toList.take 9 =
        (padded count (instant.nanoseconds / 10 ^ (9 - count))).toList :=
      List.take_of_length_le (by rw [writes.length]; exact enough.1)
    rw [fraction, if_neg none, String.toList_append]
    change readFraction ('.' :: ((padded count _).toList ++ head :: rest)) = _
    rw [readFraction]
    dsimp only
    rw [digits, others, notEmpty, if_neg Bool.false_ne_true, kept, writes.number, writes.length]
    exact congrArg (fun nanoseconds => some (nanoseconds, head :: rest))
      (Nat.div_mul_cancel whole)

theorem readZone_text (zone : Zone) : readZone zone.text.toList = some (0, []) := by
  cases zone <;> decide +kernel

theorem exists_zone_head (zone : Zone) : ∃ head rest, zone.text.toList = head :: rest ∧
    head.isDigit = false ∧ head ≠ '.' := by
  cases zone
  · exact ⟨'+', _, rfl, by decide, by decide⟩
  · exact ⟨'Z', _, rfl, by decide, by decide⟩

theorem toList_localText {instant : Instant} (plain : instant.IsPlain) :
    instant.localText.toList = (padded 4 instant.day.year.toNat).toList ++
      '-' :: ((padded 2 instant.day.month).toList ++ '-' :: ((padded 2 instant.day.day).toList ++
      'T' :: ((padded 2 (instant.secondOfDay / 3600)).toList ++
      ':' :: ((padded 2 (instant.secondOfDay / 60 % 60)).toList ++
      ':' :: (padded 2 (instant.secondOfDay % 60)).toList)))) := by
  simp [localText, Day.IsPlain.toList_text plain.day, toList_written]

/-- What a timestamp reader makes of an instant depends on what stands behind its second. -/
theorem readTimestamp_localText {instant : Instant} (plain : instant.IsPlain) (rest : List Char) :
    readTimestamp (instant.localText.toList ++ rest) =
      (readFraction rest).bind fun fraction => (readZone fraction.2).bind fun zone =>
        some (⟨instant.seconds - zone.1, fraction.1⟩, zone.2) := by
  rw [toList_localText plain]
  simp only [List.append_assoc, List.cons_append]
  rw [readTimestamp]
  refine bind_eq_of_some plain.day.writes_year.readFixed ?_
  refine bind_eq_of_some (readChar_cons _ _) ?_
  refine bind_eq_of_some plain.day.writes_month.readFixed ?_
  refine bind_eq_of_some (readChar_cons _ _) ?_
  refine bind_eq_of_some plain.day.writes_day.readFixed ?_
  refine bind_eq_of_some (plain.day.toNat_year ▸ plain.day.of?_eq) ?_
  dsimp only
  rw [if_pos (by decide)]
  refine bind_eq_of_some instant.writes_hour.readFixed ?_
  refine bind_eq_of_some (readChar_cons _ _) ?_
  refine bind_eq_of_some instant.writes_minute.readFixed ?_
  refine bind_eq_of_some (readChar_cons _ _) ?_
  refine bind_eq_of_some instant.writes_second.readFixed ?_
  simp only [instantOf?_eq]
  rfl

/-- A timestamp is read back. -/
theorem readTimestamp_timestamp {instant : Instant} (plain : instant.IsPlain) {count : Nat}
    (enough : instant.Suffices count) (zone : Zone) :
    readTimestamp (instant.timestamp count zone).toList = some (instant, []) := by
  rcases exists_zone_head zone with ⟨head, rest, isZone, noDigit, noPoint⟩
  have fraction : readFraction ((instant.fraction count).toList ++ head :: rest) =
      some (instant.nanoseconds, head :: rest) :=
    readFraction_fraction plain.noLeap enough noDigit noPoint
  have ends := readZone_text zone
  rw [isZone] at ends
  rw [timestamp, String.toList_append, String.toList_append, List.append_assoc, isZone,
    readTimestamp_localText plain, fraction, Option.bind_some, ends, Option.bind_some,
    Int.sub_zero]

/-- Without a fraction and a zone, the text of a whole second is no timestamp, but it is read
back. -/
theorem readLocal_localText {instant : Instant} (plain : instant.IsPlain)
    (isWhole : instant.nanoseconds = 0) :
    readTimestamp instant.localText.toList = none ∧
      readLocal instant.localText.toList = some (instant, []) := by
  have second : readShort ((padded 2 (instant.secondOfDay % 60)).toList ++ []) =
      some (instant.secondOfDay % 60, []) := instant.writes_second.readShort
  have isInstant : (⟨instant.seconds, 0⟩ : Instant) = instant := by rw [← isWhole]
  rw [List.append_nil] at second
  constructor
  · have read := readTimestamp_localText plain []
    rw [List.append_nil] at read
    exact read
  · have onDay := plain.day.readDay_written (.yearFirst, '-')
    rw [(toList_written _).1] at onDay
    simp only [List.append_assoc, List.cons_append] at onDay
    rw [toList_localText plain, readLocal]
    refine bind_eq_of_some (onDay _) ?_
    refine bind_eq_of_some (readChar_cons _ _) ?_
    refine bind_eq_of_some instant.writes_hour.readShort ?_
    refine bind_eq_of_some (readChar_cons _ _) ?_
    refine bind_eq_of_some instant.writes_minute.readShort ?_
    refine bind_eq_of_some (readChar_cons _ _) ?_
    refine bind_eq_of_some second ?_
    dsimp only
    rw [instantOf?_eq, isInstant]
    rfl

end Instant

/-! ## Date texts -/

/-- Whether a character can occur in a date that is written in full. -/
def isDateMark (character : Char) : Bool :=
  character.isDigit || ['-', '/', ':', '.', '+', 'T', 'Z'].contains character

/-- Texts of such characters that begin with a digit. -/
structure IsDateText (characters : List Char) : Prop where
  begins : ∃ head rest, characters = head :: rest ∧ head.isDigit = true
  marks : characters.all isDateMark = true

theorem plain_of_isDateMark {character : Char} (mark : isDateMark character = true) :
    Text.isBlank character = false ∧ character.toNat < 128 := by
  rcases Bool.or_eq_true_iff.mp mark with digit | listed
  · have parts := toNat_of_isDigit digit
    exact ⟨isBlank_of_isDigit digit, by omega⟩
  · simp only [List.contains_iff_mem, List.mem_cons, List.not_mem_nil, or_false] at listed
    rcases listed with rfl | rfl | rfl | rfl | rfl | rfl | rfl <;> decide

/-- No keyword begins with a digit. -/
theorem Keyword.ofText?_eq_none {text : String} {head : Char} {rest : List Char}
    (begins : text.toList = head :: rest) (digit : head.isDigit = true) :
    Keyword.ofText? text = none := by
  have differs (word : String) (noDigit : word.toList.head?.any Char.isDigit = false) :
      (text == word) = false := by
    rw [beq_eq_false_iff_ne]
    rintro rfl
    rw [begins, List.head?_cons, Option.any_some, digit] at noDigit
    cases noDigit
  rw [ofText?, differs _ (by decide), differs _ (by decide), differs _ (by decide),
    differs _ (by decide)]
  rfl

/-- A date that is written in full means the same at all times and between any blanks. -/
theorem reference?_of_isDateText {before text after : String} (isDateText : IsDateText text.toList)
    (blankBefore : Text.isBlankText before = true) (blankAfter : Text.isBlankText after = true)
    (now : Instant) : reference? (before ++ text ++ after) now = absolute? text.toList := by
  rcases isDateText with ⟨⟨head, rest, begins, digit⟩, marks⟩
  have plain : ∀ character ∈ text.toList,
      Text.isBlank character = false ∧ character.toNat < 128 := fun character member =>
    plain_of_isDateMark (List.all_eq_true.mp marks character member)
  have notEmpty : text.toList ≠ [] := by
    rw [begins]
    exact List.cons_ne_nil _ _
  have trimmed : Text.IsTrimmed text.toList :=
    Text.IsTrimmed.of_forall fun character member => (plain character member).1
  have trim : Text.trim (before ++ text ++ after) = text := by
    rw [Text.trim, String.append_assoc, String.toList_append, String.toList_append,
      Text.trimChars_append trimmed notEmpty (List.all_eq_true.mp blankBefore)
        (List.all_eq_true.mp blankAfter), String.ofList_toList]
  have lower : (Text.lower text).toList = head :: rest.map Char.toLower := by
    rw [Text.toList_lower_of_ascii fun character member => (plain character member).2, begins,
      List.map_cons, toLower_of_isDigit digit]
  rw [reference?, trim, Keyword.ofText?_eq_none lower digit]

theorem Writes.marks {digits : List Char} {width number : Nat}
    (writes : Writes digits width number) : digits.all isDateMark = true :=
  List.all_eq_true.mpr fun character member => by
    rw [isDateMark, writes.digit character member, Bool.true_or]

theorem Writes.begins {digits : List Char} {width number : Nat}
    (writes : Writes digits width number) (positive : 0 < width) (rest : List Char) :
    ∃ head others, digits ++ rest = head :: others ∧ head.isDigit = true := by
  cases digits with
  | nil => exact absurd rfl (writes.ne_nil positive)
  | cons head tail => exact ⟨head, tail ++ rest, rfl, writes.digit head List.mem_cons_self⟩

/-- Digits between separators make a date text. -/
theorem isDateText_of_writes {first second third : List Char} {width number : Nat}
    {separator : Char} (writes : Writes first width number) (positive : 0 < width)
    (mark : isDateMark separator = true) (marksSecond : second.all isDateMark = true)
    (marksThird : third.all isDateMark = true) :
    IsDateText (first ++ separator :: (second ++ separator :: third)) := by
  refine ⟨writes.begins positive _, ?_⟩
  simp only [List.all_append, List.all_cons, writes.marks, mark, marksSecond, marksThird,
    Bool.and_self]

theorem isDateText_written {day : Day} (plain : day.IsPlain) {form : DayOrder × Char}
    (listed : form ∈ dayNotations) : IsDateText (day.written form).toList := by
  have isMark : ∀ form ∈ dayNotations, isDateMark form.2 = true := by decide
  have separator := isMark form listed
  have year := plain.writes_year
  have month := plain.writes_month
  have dayOfMonth := plain.writes_day
  rcases form with ⟨order, mark⟩
  cases order with
  | yearFirst =>
      rw [(toList_written _).1]
      exact isDateText_of_writes year (by decide) separator month.marks dayOfMonth.marks
  | dayFirst =>
      rw [(toList_written _).2.1]
      exact isDateText_of_writes dayOfMonth (by decide) separator month.marks year.marks
  | monthFirst =>
      rw [(toList_written _).2.2]
      exact isDateText_of_writes month (by decide) separator dayOfMonth.marks year.marks

theorem isDateText_localText {instant : Instant} (plain : instant.IsPlain) {rest : List Char}
    (marks : rest.all isDateMark = true) : IsDateText (instant.localText.toList ++ rest) := by
  have signs : isDateMark '-' = true ∧ isDateMark 'T' = true ∧ isDateMark ':' = true := by decide
  rw [Instant.toList_localText plain]
  simp only [List.append_assoc]
  refine ⟨plain.day.writes_year.begins (by decide) _, ?_⟩
  simp only [List.all_append, List.all_cons, signs, plain.day.writes_year.marks,
    plain.day.writes_month.marks, plain.day.writes_day.marks, instant.writes_hour.marks,
    instant.writes_minute.marks, instant.writes_second.marks, marks, Bool.and_self]

theorem marks_fraction {instant : Instant} (noLeap : instant.nanoseconds < 1000000000) {count : Nat}
    (enough : instant.Suffices count) : (instant.fraction count).toList.all isDateMark = true := by
  by_cases none : count = 0
  · rw [Instant.fraction, if_pos none]
    rfl
  · have point : ".".toList.all isDateMark = true := by decide
    rw [Instant.fraction, if_neg none, String.toList_append, List.all_append, point,
      (Instant.writes_fraction noLeap enough none).marks]
    rfl

theorem marks_zone (zone : Zone) : zone.text.toList.all isDateMark = true := by
  cases zone <;> decide

/-- An instant is written with enough digits of its fraction. -/
theorem Instant.text_eq_timestamp {instant : Instant} (noLeap : instant.nanoseconds < 1000000000) :
    ∃ count, instant.Suffices count ∧ ∀ zone, instant.text zone = instant.timestamp count zone := by
  have close (count : Nat) (enough : instant.Suffices count)
      (same : fractionText instant.nanoseconds = instant.fraction count) :
      ∃ count, instant.Suffices count ∧
        ∀ zone, instant.text zone = instant.timestamp count zone := by
    refine ⟨count, enough, fun zone => ?_⟩
    rw [text, if_neg (by omega)]
    rw [Nat.zero_mul, Nat.sub_zero, Nat.add_zero, same]
    rfl
  by_cases isWhole : instant.nanoseconds = 0
  · apply close 0 ⟨by decide, by rw [isWhole]; exact Nat.dvd_zero _⟩
    rw [fractionText, isWhole]
    rfl
  by_cases millis : instant.nanoseconds % 1000000 = 0
  · apply close 3 ⟨by decide, Nat.dvd_of_mod_eq_zero millis⟩
    rw [fractionText, if_neg (by simpa using isWhole), if_pos (by simpa using millis)]
    rfl
  by_cases micros : instant.nanoseconds % 1000 = 0
  · apply close 6 ⟨by decide, Nat.dvd_of_mod_eq_zero micros⟩
    rw [fractionText, if_neg (by simpa using isWhole), if_neg (by simpa using millis),
      if_pos (by simpa using micros)]
    rfl
  · apply close 9 ⟨by decide, Nat.one_dvd _⟩
    rw [fractionText, if_neg (by simpa using isWhole), if_neg (by simpa using millis),
      if_neg (by simpa using micros), fraction, if_neg (by decide), Nat.sub_self, Nat.pow_zero,
      Nat.div_one]

/-- Whether an instant is the first one of a day. -/
def Instant.IsFirstOf (instant : Instant) (day : Day) : Prop :=
  instant.day = day ∧ ∀ other : Instant, other.day = day → instant.notAfter other = true

theorem Instant.isFirstOf_ofDay {day : Day} (isDate : day.IsDate) : (ofDay day).IsFirstOf day := by
  refine ⟨day_ofDay isDate, fun other onDay => ?_⟩
  rw [← day_ofDay isDate, day_eq_iff, ofDay, dayNumber_ofDayNumber] at onDay
  rw [ofDay, ofDayNumber_notAfter, onDay]

/-- Dates that are written in full are read back at all times and between any blanks: days in each
of the notations, instants with enough digits of their fraction, and whole seconds without fraction
and zone. -/
theorem written_dates_are_read_back {before after : String}
    (blankBefore : Text.isBlankText before = true) (blankAfter : Text.isBlankText after = true)
    (now : Instant) :
    (∀ day : Day, day.IsPlain → (Instant.ofDay day).IsFirstOf day ∧ ∀ form ∈ dayNotations,
      reference? (before ++ day.written form ++ after) now = some (.day (.ofDay day))) ∧
    ∀ instant : Instant, instant.IsPlain →
      (∀ zone, reference? (before ++ instant.text zone ++ after) now = some (.instant instant)) ∧
      (∀ count zone, instant.Suffices count →
        reference? (before ++ instant.timestamp count zone ++ after) now =
          some (.instant instant)) ∧
      (instant.nanoseconds = 0 →
        reference? (before ++ instant.localText ++ after) now = some (.instant instant)) := by
  constructor
  · intro day plain
    refine ⟨Instant.isFirstOf_ofDay plain.date, fun form listed => ?_⟩
    rw [reference?_of_isDateText (isDateText_written plain listed) blankBefore blankAfter,
      absolute?_written plain listed]
  · intro instant plain
    have timestamps : ∀ count zone, instant.Suffices count →
        reference? (before ++ instant.timestamp count zone ++ after) now =
          some (.instant instant) := by
      intro count zone enough
      have isDateText : IsDateText (instant.timestamp count zone).toList := by
        rw [Instant.timestamp, String.append_assoc, String.toList_append, String.toList_append]
        apply isDateText_localText plain
        rw [List.all_append, marks_fraction plain.noLeap enough, marks_zone]
        rfl
      rw [reference?_of_isDateText isDateText blankBefore blankAfter, absolute?, whole?,
        Instant.readTimestamp_timestamp plain enough]
    refine ⟨?_, timestamps, ?_⟩
    · rcases Instant.text_eq_timestamp plain.noLeap with ⟨count, enough, same⟩
      intro zone
      rw [same zone]
      exact timestamps count zone enough
    · intro isWhole
      have isDateText : IsDateText (instant.localText.toList ++ []) :=
        isDateText_localText plain rfl
      rw [List.append_nil] at isDateText
      have read := Instant.readLocal_localText plain isWhole
      rw [reference?_of_isDateText isDateText blankBefore blankAfter, absolute?, whole?, read.1,
        whole?, read.2]

/-- The leap day of the year 0 is read back, and so is half a second before the year 10000. -/
theorem half_second_is_read_back :
    reference? "\t29-02-0000 " ⟨0, 0⟩ = some (.day (.ofDay ⟨0, 2, 29⟩)) ∧
      reference? "\t9999-12-31T23:59:59.5Z " ⟨0, 0⟩ =
        some (.instant ⟨253402300799, 500000000⟩) := by
  have readBack := @written_dates_are_read_back "\t" " " (by decide) (by decide) ⟨0, 0⟩
  have leapDay : (⟨0, 2, 29⟩ : Day).IsPlain := ⟨⟨by decide, by decide⟩, by decide⟩
  have halfSecond : (⟨253402300799, 500000000⟩ : Instant).IsPlain := ⟨by decide, by decide⟩
  have dayText : "\t" ++ Day.written ⟨0, 2, 29⟩ (.dayFirst, '-') ++ " " = "\t29-02-0000 " := by
    decide +kernel
  have instantText : "\t" ++ Instant.timestamp ⟨253402300799, 500000000⟩ 1 .letter ++ " " =
      "\t9999-12-31T23:59:59.5Z " := by decide +kernel
  rw [← dayText, ← instantText]
  exact ⟨(readBack.1 _ leapDay).2 _ (by decide),
    (readBack.2 _ halfSecond).2.1 1 .letter ⟨by decide, by decide⟩⟩

end Time
end Commonplace
