import Commonplace.Proofs.Index.Selection
import Commonplace.Proofs.Index.Phrases
import Commonplace.Proofs.Index.Ranking

namespace Commonplace
namespace Index

/-!
# The index takes no notice of the case of ASCII letters

Names of fields, words and values are looked for in lower case, each in a way of its own.  Two query
trees that differ only in the case of ASCII letters ask an index for the same, except where a value
is a date text or a checksum.  What the translation of the one gives is then the translation of the
other, so that searches find the same notes in the same order.
-/

/-! ## Names and values -/

/-- Whether two texts differ at most in the case of ASCII letters. -/
abbrev SameText (first second : String) : Prop :=
  Text.SameLetters first.toList second.toList

theorem ofName_congr {name other : String} (names : SameText name other) :
    Field.ofName name = Field.ofName other := by
  rw [Field.ofName, Field.ofName, Text.lower_congr (Text.trim_sameLetters names)]

theorem isEmpty_congr {first second : String} (same : SameText first second) :
    first.isEmpty = second.isEmpty := by
  have lengths := congrArg List.length same
  rw [List.length_map, List.length_map] at lengths
  rw [Bool.eq_iff_iff, String.isEmpty_iff, String.isEmpty_iff, ← String.toList_eq_nil_iff,
    ← String.toList_eq_nil_iff, ← List.length_eq_zero_iff, lengths, List.length_eq_zero_iff]

theorem patternField_congr {name other : String} (names : SameText name other) :
    Note.patternField name = Note.patternField other := by
  rw [Note.patternField, Note.patternField, isEmpty_congr names, ofName_congr names]

theorem metadataTerm_congr (key : String) {value other : String} (values : SameText value other) :
    metadataTerm key value = metadataTerm key other := by
  rw [metadataTerm, metadataTerm, Text.lower_congr (Text.trim_sameLetters values)]

theorem stems_congr {first second : String} (same : SameText first second) :
    stems first = stems second := by
  have small : Text.isAlphanumeric ∘ Char.toLower = Text.isAlphanumeric :=
    funext Text.isAlphanumeric_toLower
  apply congrArg (List.filterMap id)
  apply placed_congr stemOf_map_toLower
  rw [writtenWords, writtenWords, ← Text.runs_map_toLower small, ← Text.runs_map_toLower small,
    same]

theorem wordsCriterion_congr (slot : TextSlot) {value other : String}
    (values : SameText value other) (weight : Nat) :
    wordsCriterion slot value weight = wordsCriterion slot other weight := by
  rw [wordsCriterion, wordsCriterion, stems_congr values]

theorem termCriterion_congr {value other : String} (values : SameText value other) :
    termCriterion value = termCriterion other := by
  have alike : ∀ slot, wordsCriterion slot value slot.weight =
      wordsCriterion slot other slot.weight :=
    fun slot => wordsCriterion_congr slot values slot.weight
  rw [termCriterion, termCriterion, funext alike]

/-! ## Fields -/

/-- Whether a value is compared as it is spelled: a date text, and the value of a checksum. -/
def IsSpelled (name : String) (comparison : Comparison) : Prop :=
  (Field.ofName name).isDate = true ∨ Field.ofName name = .checksum ∧ comparison = .equals

theorem equalityCriterion_congr [PatternEngine] {field : Field} {value other : String}
    (values : SameText value other) (spelled : field = .checksum → value = other) :
    equalityCriterion field value = equalityCriterion field other := by
  cases field with
  | title => exact congrArg Except.ok (wordsCriterion_congr .title values 1)
  | lead => exact congrArg Except.ok (wordsCriterion_congr .lead values 1)
  | body => exact congrArg Except.ok (wordsCriterion_congr .body values 1)
  | tags | path => simp only [equalityCriterion, Text.lower_congr values]
  | checksum => rw [spelled rfl]
  | metadata key =>
      rw [equalityCriterion, equalityCriterion, metadataTerm_congr key values]
  | created | modified => rfl

theorem patternCriterion_of_other [PatternEngine] {name other : String} {field : Field}
    {shape : TermPattern} {criterion : Criterion}
    (found : patternCriterion name field shape = .ok criterion) :
    patternCriterion other field shape = .ok criterion := by
  cases field with
  | created | modified => cases found
  | path | title | body | lead | tags | checksum | metadata => exact found

theorem dateSlot_of_other {name other value text : String}
    (same : Field.ofName name = Field.ofName other) {slot : DateSlot}
    (found : dateSlot name value = .ok slot) : dateSlot other text = .ok slot := by
  have isSlot := dateSlot?_of_dateSlot found
  rw [same] at isSlot
  rw [dateSlot, isSlot]

theorem windowOf_of_other {now : Time.Instant} {name value : String} {comparison : Comparison}
    {window : Time.Window} (found : Note.windowOf now name comparison value = .ok window)
    (other : String) : Note.windowOf now other comparison value = .ok window := by
  unfold Note.windowOf at found ⊢
  split at found
  · cases found
  · split at found
    · cases found
    · exact found

theorem instantOf_of_other {now instant : Time.Instant} {name value : String}
    (found : Note.instantOf now name value = .ok instant) (other : String) :
    Note.instantOf now other value = .ok instant := by
  unfold Note.instantOf at found ⊢
  split at found
  · cases found
  · exact found

theorem rangeOf_of_other {now : Time.Instant} {name start stop : String} {window : Time.Window}
    (found : Note.rangeOf now name start stop = .ok window) (other : String) :
    Note.rangeOf now other start stop = .ok window := by
  rcases bind_eq_ok.mp found with ⟨first, hasFirst, more⟩
  rcases bind_eq_ok.mp more with ⟨last, hasLast, within⟩
  refine bind_eq_ok.mpr ⟨first, instantOf_of_other hasFirst other,
    bind_eq_ok.mpr ⟨last, instantOf_of_other hasLast other, ?_⟩⟩
  split at within
  · cases within
  · exact within

theorem dateCriterion_of_other {now : Time.Instant} {name other value : String}
    {comparison : Comparison} (same : Field.ofName name = Field.ofName other)
    {criterion : Criterion} (found : dateCriterion now name comparison value = .ok criterion) :
    dateCriterion now other comparison value = .ok criterion := by
  rcases bind_eq_ok.mp found with ⟨slot, hasSlot, more⟩
  rcases bind_eq_ok.mp more with ⟨window, hasWindow, whole⟩
  exact bind_eq_ok.mpr ⟨slot, dateSlot_of_other same hasSlot,
    bind_eq_ok.mpr ⟨window, windowOf_of_other hasWindow other, whole⟩⟩

theorem rangeCriterion_of_other {now : Time.Instant} {name other start stop : String}
    (same : Field.ofName name = Field.ofName other) {criterion : Criterion}
    (found : rangeCriterion now name start stop = .ok criterion) :
    rangeCriterion now other start stop = .ok criterion := by
  rcases bind_eq_ok.mp found with ⟨slot, hasSlot, more⟩
  rcases bind_eq_ok.mp more with ⟨window, hasWindow, whole⟩
  exact bind_eq_ok.mpr ⟨slot, dateSlot_of_other same hasSlot,
    bind_eq_ok.mpr ⟨window, rangeOf_of_other hasWindow other, whole⟩⟩

theorem fieldCriterion_respelled [PatternEngine] {now : Time.Instant}
    {name other value otherValue : String} {comparison : Comparison} (names : SameText name other)
    (values : SameText value otherValue) (spelled : IsSpelled name comparison → value = otherValue)
    {criterion : Criterion} (found : fieldCriterion now name comparison value = .ok criterion) :
    fieldCriterion now other comparison otherValue = .ok criterion := by
  have same := ofName_congr names
  unfold fieldCriterion at found ⊢
  dsimp only at found ⊢
  rw [← same]
  cases date : (Field.ofName name).isDate with
  | true =>
      rw [date, if_pos rfl] at found
      rw [if_pos rfl, ← spelled (.inl date)]
      exact dateCriterion_of_other same found
  | false =>
      rw [date, if_neg Bool.false_ne_true] at found
      rw [if_neg Bool.false_ne_true]
      cases comparison with
      | equals =>
          rw [← equalityCriterion_congr values fun checksum => spelled (.inr ⟨checksum, rfl⟩)]
          exact found
      | startsWith | endsWith =>
          rw [Text.lower_congr values] at found
          exact patternCriterion_of_other found
      | greater | atLeast | less | atMost => cases found

/-! ## Query trees -/

mutual

/-- Whether a query tree is another one in which ASCII letters of names, terms, patterns and values
have changed their case.  Date texts and the value of a checksum stay as they are spelled. -/
inductive Respelled : Expr -> Expr -> Prop where
  | term {value other : String} (values : SameText value other) :
      Respelled (.term value) (.term other)
  | field {name other value otherValue : String} {comparison : Comparison}
      (names : SameText name other) (values : SameText value otherValue)
      (spelled : IsSpelled name comparison → value = otherValue) :
      Respelled (.field name comparison value) (.field other comparison otherValue)
  | not {inner other : Expr} (inside : Respelled inner other) :
      Respelled (.not inner) (.not other)
  | or {left right otherLeft otherRight : Expr} (onLeft : Respelled left otherLeft)
      (onRight : Respelled right otherRight) :
      Respelled (.or left right) (.or otherLeft otherRight)
  | and {expressions others : List Expr} (all : AllRespelled expressions others) :
      Respelled (.and expressions) (.and others)
  | date {name other : String} (names : SameText name other) (comparison : Comparison)
      (value : String) : Respelled (.date name comparison value) (.date other comparison value)
  | range {name other : String} (names : SameText name other) (start stop : String) :
      Respelled (.range name start stop) (.range other start stop)
  | wildcard {name other pattern otherPattern : String} (names : SameText name other)
      (patterns : SameText pattern otherPattern) (kind : WildcardKind) :
      Respelled (.wildcard name pattern kind) (.wildcard other otherPattern kind)
  | exists {name other : String} (names : SameText name other) (negated : Bool) :
      Respelled (.exists name negated) (.exists other negated)

/-- Whether the query trees of a list are those of another in this way, one by one. -/
inductive AllRespelled : List Expr -> List Expr -> Prop where
  | nil : AllRespelled [] []
  | cons {expression other : Expr} {expressions others : List Expr}
      (first : Respelled expression other) (later : AllRespelled expressions others) :
      AllRespelled (expression :: expressions) (other :: others)

end

mutual

/-- The translation of a query tree is that of the other spelling. -/
theorem criterion_respelled [PatternEngine] {now : Time.Instant} {expression other : Expr}
    (respelled : Respelled expression other) {found : Criterion}
    (translated : criterion now expression = .ok found) : criterion now other = .ok found := by
  cases respelled with
  | term values =>
      rw [criterion, termCriterion_congr values] at translated
      exact translated
  | field names values spelled => exact fieldCriterion_respelled names values spelled translated
  | not inside =>
      rcases bind_eq_ok.mp translated with ⟨inner, hasInner, whole⟩
      exact bind_eq_ok.mpr ⟨inner, criterion_respelled inside hasInner, whole⟩
  | or onLeft onRight =>
      rcases bind_eq_ok.mp translated with ⟨first, hasFirst, more⟩
      rcases bind_eq_ok.mp more with ⟨second, hasSecond, whole⟩
      exact bind_eq_ok.mpr ⟨first, criterion_respelled onLeft hasFirst,
        bind_eq_ok.mpr ⟨second, criterion_respelled onRight hasSecond, whole⟩⟩
  | and all =>
      rcases bind_eq_ok.mp translated with ⟨required, hasRequired, whole⟩
      exact bind_eq_ok.mpr ⟨required, criteria_respelled all hasRequired, whole⟩
  | date names => exact dateCriterion_of_other (ofName_congr names) translated
  | range names => exact rangeCriterion_of_other (ofName_congr names) translated
  | wildcard names patterns kind =>
      rw [criterion, wildcardCriterion, patternField_congr names,
        Text.lower_congr patterns] at translated
      exact patternCriterion_of_other translated
  | «exists» names negated =>
      rw [← translated, criterion, criterion, presenceCriterion, presenceCriterion,
        ofName_congr names]

theorem criteria_respelled [PatternEngine] {now : Time.Instant} {expressions others : List Expr}
    (respelled : AllRespelled expressions others) {required : List Criterion}
    (translated : criteria now expressions = .ok required) :
    criteria now others = .ok required := by
  cases respelled with
  | nil => exact translated
  | cons first later =>
      rcases bind_eq_ok.mp translated with ⟨head, hasHead, more⟩
      rcases bind_eq_ok.mp more with ⟨tail, hasTail, whole⟩
      exact bind_eq_ok.mpr ⟨head, criterion_respelled first hasHead,
        bind_eq_ok.mpr ⟨tail, criteria_respelled later hasTail, whole⟩⟩

end

/-! ## Searches -/

theorem AllRespelled.isEmpty_eq {expressions others : List Expr}
    (respelled : AllRespelled expressions others) : expressions.isEmpty = others.isEmpty := by
  cases respelled <;> rfl

section Engine

variable [PatternEngine]

theorem queryCriterion_respelled {now : Time.Instant} {query other : Query}
    (respelled : AllRespelled query.expressions other.expressions) {found : Criterion}
    (translated : queryCriterion now query = .ok found) : queryCriterion now other = .ok found := by
  rcases bind_eq_ok.mp translated with ⟨required, hasRequired, whole⟩
  exact bind_eq_ok.mpr ⟨required, criteria_respelled respelled hasRequired, whole⟩

/-- Options with two spellings of a query have one criterion, or fail alike. -/
theorem optionsCriterion_respelled {now : Time.Instant} {query other : Query}
    (respelled : AllRespelled query.expressions other.expressions) {found : Criterion}
    (translated : queryCriterion now query = .ok found) (options : SearchOptions) :
    optionsCriterion now { options with query := some query } =
      optionsCriterion now { options with query := some other } := by
  have askedOther := asked_of_query (queryCriterion_respelled respelled translated)
  rw [Query.isEmpty, ← respelled.isEmpty_eq] at askedOther
  unfold optionsCriterion
  dsimp only
  rw [asked_of_query translated, askedOther]
  rfl

/-- The index takes no notice of the case of ASCII letters.  Where a query tree has a criterion, the
same criterion is that of every other spelling, except of date texts and checksums.  So searches for
two spellings find the same notes with the same scores in the same order, and count as many, or fail
alike.  They fail only for a note that is nested too deep or a path filter that the engine does not
take. -/
theorem letter_case_is_ignored (now : Time.Instant) :
    (∀ expression other found, Respelled expression other →
      criterion now expression = .ok found → criterion now other = .ok found) ∧
    ∀ query other : Query, ∀ found, AllRespelled query.expressions other.expressions →
      queryCriterion now query = .ok found →
        queryCriterion now other = .ok found ∧
        ∀ contents : Contents, ∀ options : SearchOptions,
          find contents now { options with query := some query } =
            find contents now { options with query := some other } ∧
          count contents now { options with query := some query } =
            count contents now { options with query := some other } ∧
          (FiltersCompile options →
            (∃ total, count contents now { options with query := some query } = .ok total) ∧
            ((∀ note ∈ contents.notes, Loadable note) → ∃ results,
              find contents now { options with query := some query } = .ok results)) := by
  refine ⟨fun _ _ _ respelled translated => criterion_respelled respelled translated, ?_⟩
  intro query other found respelled translated
  refine ⟨queryCriterion_respelled respelled translated, ?_⟩
  intro contents options
  have same := optionsCriterion_respelled respelled translated options
  have asksSame : ({ options with query := some query } : SearchOptions).isEmpty =
      ({ options with query := some other } : SearchOptions).isEmpty := by
    simp only [SearchOptions.isEmpty, Option.all_some, Query.isEmpty, respelled.isEmpty_eq]
  refine ⟨?_, ?_, fun compile => ?_⟩
  · rw [find, find, same]
    rfl
  · rw [count, count, same, asksSame]
  · have compileStill : FiltersCompile { options with query := some query } :=
      ⟨compile.starts, compile.excluded⟩
    have asks := optionsCriterion_eq_ok.mpr ⟨_, asked_of_query translated, compileStill, rfl⟩
    exact ⟨⟨_, count_of_criterion asks⟩,
      fun loadable => ⟨_, find_eq_resultsOf asks (loadable_of_mem_notesToLoad loadable)⟩⟩

end Engine

/-- A query in small letters, but for a checksum. -/
def quietQuery : Query :=
  .ofExpressions
    [.or (.term "bayes' rule") (.field "tag" .equals "work"),
      .not (.wildcard "path" "projects/*" .openEnd),
      .and [.field "checksum" .equals "aB", .exists "status" true],
      .date "created" .atLeast "2024-01-01"]

/-- The same query in capital letters. -/
def shoutedQuery : Query :=
  .ofExpressions
    [.or (.term "BAYES' RULE") (.field "TAG" .equals "WORK"),
      .not (.wildcard "PATH" "PROJECTS/*" .openEnd),
      .and [.field "CHECKSUM" .equals "aB", .exists "STATUS" true],
      .date "CREATED" .atLeast "2024-01-01"]

theorem shoutedQuery_respelled :
    AllRespelled quietQuery.expressions shoutedQuery.expressions := by
  refine .cons (.or (.term ?_) (.field ?_ ?_ ?_)) (.cons (.not (.wildcard ?_ ?_ _))
    (.cons (.and (.cons (.field ?_ ?_ fun _ => rfl) (.cons (.exists ?_ _) .nil)))
      (.cons (.date ?_ _ _) .nil)))
  case refine_4 =>
    have tag : Field.ofName "tag" = .tags := by decide +kernel
    rintro (date | ⟨checksum, _⟩)
    · rw [tag] at date
      cases date
    · rw [tag] at checksum
      cases checksum
  all_goals decide

open scoped PatternEngine

/-- Both queries have one criterion, and a search for either gives the same. -/
theorem shouted_query_finds_the_same :
    (∃ found, queryCriterion ⟨0, 0⟩ quietQuery = .ok found ∧
      queryCriterion ⟨0, 0⟩ shoutedQuery = .ok found) ∧
    ∃ results,
      find methods ⟨0, 0⟩ { SearchOptions.empty with query := some quietQuery } = .ok results ∧
      find methods ⟨0, 0⟩ { SearchOptions.empty with query := some shoutedQuery } =
        .ok results := by
  have same :=
    (letter_case_is_ignored ⟨0, 0⟩).2 quietQuery shoutedQuery _ shoutedQuery_respelled rfl
  rcases same.2 methods .empty with ⟨alike, _, answers⟩
  have compile : FiltersCompile .empty := ⟨nofun, nofun⟩
  rcases (answers compile).2 (by decide) with ⟨results, answered⟩
  exact ⟨⟨_, rfl, same.1⟩, results, answered, alike ▸ answered⟩

end Index
end Commonplace
