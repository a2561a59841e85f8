import Commonplace.Index.Results
import Commonplace.Proofs.Index.FieldTerms

namespace Commonplace
namespace Index

/-!
# A note and an index agree on a query

A query is judged on a note alone, and it is translated into a criterion for an index.  On the parts
of a query that mean the same to both, and for a transparent note, the two readings agree: where the
translation succeeds, the note gives an answer, and it is the one of the index.  What does not
decide the answer of the note any more is not looked at, so that the note may answer where there is
no translation, but never the other way round.
-/

/-! ## Patterns with stars -/

/-- Whether a pattern means the same for the values of a field and for their terms. -/
structure MatchesAlike (note : Note) (name pattern : String) : Prop where
  simple : Glob.IsSimple pattern.toList
  solid : ∃ character ∈ pattern.toList, character ≠ '*'
  notChecksum : Note.patternField name ≠ .checksum
  hasKey : HasKey (Note.patternField name)
  ascii : ∀ text ∈ note.values (Note.patternField name), Text.IsAscii text.toList
  short : (Note.patternField name).isText = true ->
    ∀ text ∈ note.values (Note.patternField name), ∀ word ∈ writtenWords text, isLong word = false

/-- The pattern for terms is that of the shape in lower case. -/
theorem ofWildcard_normalize_lower {pattern : String} (ascii : Text.IsAscii pattern.toList)
    (kind : WildcardKind) :
    TermPattern.ofWildcard (kind.normalize (Text.lower pattern)) =
      TermPattern.ofWildcard
        (String.ofList ((kind.normalizeChars pattern.toList).map Char.toLower)) := by
  rw [WildcardKind.normalize, Text.toList_lower_of_ascii ascii, Glob.normalizeChars_map]

/-- An ASCII text without a line feed matches a simple pattern just when the pattern for terms
accepts it in lower case. -/
theorem matchesText_eq_accepts_lower {pattern : List Char} (ascii : Text.IsAscii pattern)
    {text : String} (asciiText : Text.IsAscii text.toList) (noBreak : '\n' ∉ text.toList) :
    Glob.matchesText (pattern.map Glob.partOf) text =
      (TermPattern.ofWildcard (String.ofList (pattern.map Char.toLower))).accepts
        (Text.lower text) := by
  have lowered := Text.toList_lower_of_ascii asciiText
  have free : IsFree (text.toList.map Char.toLower) := by
    rw [← lowered]
    exact isFree_of_not_mem (Text.not_mem_lower noBreak)
  have same := TermPattern.matchesText_eq_accepts ascii asciiText free
  rw [String.ofList_toList, ← lowered, String.ofList_toList] at same
  exact same

/-- The plain words of an ASCII text without long words are its words in lower case. -/
theorem plainWords_of_ascii {text : String} (ascii : Text.IsAscii text.toList)
    (short : ∀ word ∈ writtenWords text, isLong word = false) :
    plainWords text = (writtenWords text).map fun word => Text.lower (String.ofList word) := by
  unfold plainWords placed
  rw [List.filterMap_map, ← List.filterMap_eq_map]
  apply List.filterMap_congr
  intro word member
  have asciiWord : Text.IsAscii (String.ofList word).toList := by
    rw [String.toList_ofList]
    exact fun character inWord => ascii character (Text.mem_of_mem_runs member inWord).1
  have lowered : Text.lower (String.ofList word) = String.ofList (Text.lowerEach word) := by
    rw [← String.toList_inj, Text.toList_lower_of_ascii asciiWord, String.toList_ofList,
      String.toList_ofList, Text.lowerEach_of_ascii]
    rw [String.toList_ofList] at asciiWord
    exact asciiWord
  simp [short word member, lowered]

/-- The line feed is no letter or digit, so it is in no word. -/
theorem noBreak_of_mem_writtenWords {text : String} {word : List Char}
    (member : word ∈ writtenWords text) : '\n' ∉ word := by
  intro inWord
  have kept := (Text.mem_of_mem_runs member inWord).2
  rw [Text.isAlphanumeric_of_ascii (by decide)] at kept
  revert kept
  decide

theorem any_matchesText_words {pattern : List Char} (ascii : Text.IsAscii pattern) {text : String}
    (asciiText : Text.IsAscii text.toList)
    (short : ∀ word ∈ writtenWords text, isLong word = false) :
    ((writtenWords text).any fun word =>
      Glob.matchesText (pattern.map Glob.partOf) (String.ofList word)) = true ↔
      ∃ word ∈ plainWords text,
        (TermPattern.ofWildcard (String.ofList (pattern.map Char.toLower))).accepts word =
          true := by
  rw [plainWords_of_ascii asciiText short, List.any_eq_true]
  simp only [List.mem_map, exists_exists_and_eq_and]
  apply exists_mem_congr
  intro word inText
  have asciiWord : Text.IsAscii (String.ofList word).toList := by
    rw [String.toList_ofList]
    exact fun character inWord => asciiText character (Text.mem_of_mem_runs inText inWord).1
  have noBreak : '\n' ∉ (String.ofList word).toList := by
    rw [String.toList_ofList]
    exact noBreak_of_mem_writtenWords inText
  rw [matchesText_eq_accepts_lower ascii asciiWord noBreak]

/-- A field that is neither a date nor text nor the checksum holds values. -/
theorem holdsValues_of_not {field : Field} (notDate : field.isDate = false)
    (notText : field.isText = false) (notChecksum : field ≠ .checksum) :
    holdsValues field = true := by
  cases field with
  | tags | path | metadata => rfl
  | checksum => exact absurd rfl notChecksum
  | title | body | lead => cases notText
  | created | modified => cases notDate

/-- There is no criterion of a pattern in a date. -/
theorem notDate_of_patternCriterion [PatternEngine] {name : String} {field : Field}
    {shape : TermPattern} {criterion : Criterion}
    (found : patternCriterion name field shape = .ok criterion) :
    field.isDate = false := by
  cases field with
  | created | modified => cases found
  | path | title | body | lead | tags | checksum | metadata => rfl

/-- Where there is a criterion of a pattern, the note answers as the criterion does. -/
theorem satisfiesWildcard_of_criterion [PatternEngine] {note : Note}
    (transparent : Transparent note) {name pattern : String} {kind : WildcardKind}
    (alike : MatchesAlike note name pattern) {criterion : Criterion}
    (found : wildcardCriterion name pattern kind = .ok criterion) :
    note.satisfiesWildcard name pattern kind = .ok (criterion.selects note) := by
  have simple := alike.simple.normalizeChars alike.solid kind
  have parts : Glob.read (kind.normalize pattern) =
      .ok ((kind.normalizeChars pattern.toList).map Glob.partOf) :=
    Glob.read_of_simple simple
  rw [wildcardCriterion, ofWildcard_normalize_lower alike.simple.ascii] at found
  have notDate := notDate_of_patternCriterion found
  unfold Note.satisfiesWildcard
  dsimp only
  rw [notDate, parts]
  simp only [Bool.false_eq_true, if_false]
  cases isText : (Note.patternField name).isText with
  | true =>
      rw [if_pos rfl]
      apply congrArg Except.ok
      rw [Bool.eq_iff_iff, selects_pattern_of_isText isText found, List.any_eq_true]
      apply exists_mem_congr
      intro text member
      exact any_matchesText_words simple.ascii (alike.ascii text member)
        (alike.short isText text member)
  | false =>
      have valued := holdsValues_of_not notDate isText alike.notChecksum
      rw [if_neg Bool.false_ne_true]
      congr 1
      rw [Bool.eq_iff_iff, transparent.selects_pattern valued alike.hasKey found, List.any_eq_true]
      apply exists_mem_congr
      intro text member
      rw [matchesText_eq_accepts_lower simple.ascii (alike.ascii text member)
        (transparent.noBreak valued member)]

/-! ## Dates -/

/-- A computation in two steps succeeds just when both steps do. -/
theorem bind_eq_ok {fault first second : Type} {action : Except fault first}
    {next : first -> Except fault second} {result : second} :
    (action >>= next) = .ok result ↔ ∃ value, action = .ok value ∧ next value = .ok result := by
  cases action with
  | error fault =>
      constructor
      · intro same
        cases same
      · rintro ⟨_, same, _⟩
        cases same
  | ok value =>
      constructor
      · intro same
        exact ⟨value, rfl, same⟩
      · rintro ⟨_, same, found⟩
        cases same
        exact found

/-- Whether the window that was found, if one was, is held as it is. -/
def WindowHeld (found : Except Fault Time.Window) : Prop :=
  ∀ window, found = .ok window -> HeldWindow window

theorem dateSlot?_of_dateSlot {name value : String} {slot : DateSlot}
    (found : dateSlot name value = .ok slot) : dateSlot? (Field.ofName name) = some slot := by
  unfold dateSlot at found
  split at found
  · rename_i same
    rw [same, Except.ok.inj found]
  · cases found

/-- The date of a note lies in a window just when the criterion of the window selects the note. -/
theorem dateWithin_eq {note : Note} (transparent : Transparent note) {name : String}
    {slot : DateSlot} (isSlot : dateSlot? (Field.ofName name) = some slot) {window : Time.Window}
    (held : HeldWindow window) (value : String) :
    note.dateWithin name value window = .ok ((Criterion.dated slot window).selects note) := by
  rw [Note.dateWithin, if_pos (isDate_of_dateSlot? isSlot), transparent.selects_dated isSlot held]

theorem satisfiesDate_of_criterion {note : Note} (transparent : Transparent note)
    {now : Time.Instant} {name : String} {comparison : Comparison} {value : String}
    (held : WindowHeld (Note.windowOf now name comparison value)) {criterion : Criterion}
    (found : dateCriterion now name comparison value = .ok criterion) :
    note.satisfiesDate now name comparison value = .ok (criterion.selects note) := by
  unfold dateCriterion at found
  rcases bind_eq_ok.mp found with ⟨slot, hasSlot, rest⟩
  rcases bind_eq_ok.mp rest with ⟨window, hasWindow, same⟩
  have within := dateWithin_eq transparent (dateSlot?_of_dateSlot hasSlot)
    (held window hasWindow) value
  rw [← Except.ok.inj same, Note.satisfiesDate]
  exact bind_eq_ok.mpr ⟨window, hasWindow, within⟩

theorem satisfiesRange_of_criterion {note : Note} (transparent : Transparent note)
    {now : Time.Instant} {name start stop : String}
    (held : WindowHeld (Note.rangeOf now name start stop)) {criterion : Criterion}
    (found : rangeCriterion now name start stop = .ok criterion) :
    note.satisfies now (.range name start stop) = .ok (criterion.selects note) := by
  unfold rangeCriterion at found
  rcases bind_eq_ok.mp found with ⟨slot, hasSlot, rest⟩
  rcases bind_eq_ok.mp rest with ⟨window, hasWindow, same⟩
  have within := dateWithin_eq transparent (dateSlot?_of_dateSlot hasSlot)
    (held window hasWindow) stop
  rw [← Except.ok.inj same, Note.satisfies]
  exact bind_eq_ok.mpr ⟨window, hasWindow, within⟩

/-! ## Fields compared with values -/

/-- Whether a comparison of a field means the same to a note and to an index. -/
inductive ComparesAlike (now : Time.Instant) (name : String) (comparison : Comparison)
    (value : String) : Prop where
  | date (isDate : (Field.ofName name).isDate = true)
      (held : WindowHeld (Note.windowOf now name comparison value))
  | value (valued : holdsValues (Field.ofName name) = true) (hasKey : HasKey (Field.ofName name))
      (trimmed : Text.trim value = value)

theorem notDate_of_holdsValues {field : Field} (valued : holdsValues field = true) :
    field.isDate = false := by
  cases field with
  | created | modified => cases valued
  | path | title | body | lead | tags | checksum | metadata => rfl

/-- A pattern that tests terms without a line feed selects the notes with a value that passes the
test in lower case. -/
theorem selects_test [PatternEngine] {note : Note} (transparent : Transparent note) {field : Field}
    (valued : holdsValues field = true) (hasKey : HasKey field) {name : String}
    {shape : TermPattern} {test : List Char -> Bool}
    (tests : ∀ term : String, IsFree term.toList -> shape.accepts term = test term.toList)
    {criterion : Criterion} (found : patternCriterion name field shape = .ok criterion) :
    criterion.selects note = true ↔
      ∃ text ∈ note.values field, test (Text.lower text).toList = true := by
  rw [transparent.selects_pattern valued hasKey found]
  apply exists_mem_congr
  intro text member
  have noBreak := Text.not_mem_lower (transparent.noBreak valued member)
  rw [tests (Text.lower text) (isFree_of_not_mem noBreak)]

/-- The criterion of a comparison selects the notes with a value that compares as asked. -/
theorem selects_comparison [PatternEngine] {note : Note} (transparent : Transparent note)
    {now : Time.Instant} {name : String} {comparison : Comparison} {value : String}
    (valued : holdsValues (Field.ofName name) = true) (hasKey : HasKey (Field.ofName name))
    (trimmed : Text.trim value = value) {criterion : Criterion}
    (found : fieldCriterion now name comparison value = .ok criterion) :
    comparison.isOrdering = false ∧
      (criterion.selects note = true ↔
        ∃ text ∈ note.values (Field.ofName name),
          Note.compares (Field.ofName name) comparison (Text.lower value).toList
            (Text.lower text).toList = true) := by
  unfold fieldCriterion at found
  simp only [notDate_of_holdsValues valued, Bool.false_eq_true, if_false] at found
  cases comparison with
  | equals =>
      exact ⟨rfl, transparent.selects_equality valued hasKey (fun key => lower_of_ofName) trimmed
        found⟩
  | startsWith =>
      exact ⟨rfl, selects_test transparent valued hasKey
        (fun term => TermPattern.accepts_startingWith) found⟩
  | endsWith =>
      exact ⟨rfl, selects_test transparent valued hasKey
        (fun term => TermPattern.accepts_endingWith) found⟩
  | greater | atLeast | less | atMost => cases found

theorem satisfiesField_of_criterion [PatternEngine] {note : Note} (transparent : Transparent note)
    {now : Time.Instant} {name : String} {comparison : Comparison} {value : String}
    (alike : ComparesAlike now name comparison value) {criterion : Criterion}
    (found : fieldCriterion now name comparison value = .ok criterion) :
    note.satisfiesField now name comparison value = .ok (criterion.selects note) := by
  rw [Note.satisfiesField]
  cases alike with
  | date isDate held =>
      unfold fieldCriterion at found
      simp only [isDate, if_true] at found
      rw [if_pos isDate]
      exact satisfiesDate_of_criterion transparent held found
  | value valued hasKey trimmed =>
      rcases selects_comparison transparent valued hasKey trimmed found with ⟨notOrdering, selects⟩
      rw [notDate_of_holdsValues valued, notOrdering, trimmed]
      simp only [Bool.false_eq_true, if_false]
      apply congrArg Except.ok
      rw [Bool.eq_iff_iff, selects, List.any_eq_true]

/-! ## Expressions -/

mutual

/-- Whether an expression means the same to a note and to an index. -/
def MeansAlike (note : Note) (now : Time.Instant) : Expr -> Prop
  | .term _ => False
  | .field name comparison value => ComparesAlike now name comparison value
  | .not inner => MeansAlike note now inner
  | .or left right => MeansAlike note now left ∧ MeansAlike note now right
  | .and expressions => AllMeanAlike note now expressions
  | .date name comparison value => WindowHeld (Note.windowOf now name comparison value)
  | .range name start stop => WindowHeld (Note.rangeOf now name start stop)
  | .wildcard name pattern _ => MatchesAlike note name pattern
  | .exists _ _ => True

/-- Whether all of some expressions mean the same to a note and to an index. -/
def AllMeanAlike (note : Note) (now : Time.Instant) : List Expr -> Prop
  | [] => True
  | expression :: rest => MeansAlike note now expression ∧ AllMeanAlike note now rest

end

@[simp] theorem Criterion.selects_negation (note : Note) (criterion : Criterion) :
    criterion.negation.selects note = !criterion.selects note := by
  simp [negation, selects, selectsAll, selectsSome]

@[simp] theorem Criterion.selects_disjunction (note : Note) (first second : Criterion) :
    (first.disjunction second).selects note = (first.selects note || second.selects note) := by
  simp [disjunction, selects, selectsSome]

theorem Criterion.selects_conjunction_excluding (note : Note)
    (required excluded : List Criterion) :
    (conjunction required excluded).selects note =
      (selectsAll note required && !selectsSome note excluded) := by
  match required, excluded with
  | [], [] => rfl
  | [criterion], [] => simp [conjunction, selectsAll, selectsSome]
  | [], first :: rest => simp [conjunction, selects, selectsAll]
  | [criterion], first :: rest => simp [conjunction, selects, selectsAll]
  | first :: second :: rest, _ => simp [conjunction, selects]

@[simp] theorem Criterion.selects_conjunction (note : Note) (required : List Criterion) :
    (conjunction required []).selects note = selectsAll note required := by
  simp [selects_conjunction_excluding, selectsSome]

/-- The criterion of presence selects the notes that list the field as present. -/
theorem selects_presence {note : Note} (transparent : Transparent note) (name : String)
    (negated : Bool) :
    (presenceCriterion name negated).selects note = note.satisfiesPresence name negated := by
  have asked := transparent.terms_eq (by decide : ValueSlot.presence ∈ askedSlots)
  have present : (Criterion.term .presence (Field.ofName name).presenceKey).selects note =
      note.presentFields.contains (Field.ofName name).presenceKey := by
    rw [Criterion.selects, asked]
    rfl
  rw [presenceCriterion, Note.satisfiesPresence]
  cases negated with
  | true =>
      rw [if_pos rfl, Criterion.selects_negation, present]
      simp
  | false =>
      rw [if_neg Bool.false_ne_true, present]
      simp

section Engine

variable [PatternEngine]

mutual

/-- Where there is a criterion of an expression, the note answers as the criterion does. -/
theorem satisfies_of_criterion {note : Note} (transparent : Transparent note) (now : Time.Instant)
    (expression : Expr) (alike : MeansAlike note now expression) {criterion : Criterion}
    (found : Index.criterion now expression = .ok criterion) :
    note.satisfies now expression = .ok (criterion.selects note) := by
  cases expression with
  | term value => exact absurd alike id
  | field name comparison value => exact satisfiesField_of_criterion transparent alike found
  | not inner =>
      rcases bind_eq_ok.mp found with ⟨inside, hasInside, same⟩
      rw [Note.satisfies, satisfies_of_criterion transparent now inner alike hasInside,
        ← Except.ok.inj same, Criterion.selects_negation]
      rfl
  | or left right =>
      rcases bind_eq_ok.mp found with ⟨first, hasFirst, rest⟩
      rcases bind_eq_ok.mp rest with ⟨second, hasSecond, same⟩
      have onLeft := satisfies_of_criterion transparent now left alike.1 hasFirst
      have onRight := satisfies_of_criterion transparent now right alike.2 hasSecond
      rw [← Except.ok.inj same, Criterion.selects_disjunction, Note.satisfies, onLeft, onRight]
      cases selected : first.selects note <;> rfl
  | and expressions =>
      rcases bind_eq_ok.mp found with ⟨required, hasRequired, same⟩
      rw [← Except.ok.inj same, Criterion.selects_conjunction, Note.satisfies]
      exact satisfiesAll_of_criteria transparent now expressions alike hasRequired
  | date name comparison value => exact satisfiesDate_of_criterion transparent alike found
  | range name start stop => exact satisfiesRange_of_criterion transparent alike found
  | wildcard name pattern kind => exact satisfiesWildcard_of_criterion transparent alike found
  | «exists» name negated =>
      rw [← Except.ok.inj found, selects_presence transparent]
      rfl

theorem satisfiesAll_of_criteria {note : Note} (transparent : Transparent note)
    (now : Time.Instant) (expressions : List Expr) (alike : AllMeanAlike note now expressions)
    {required : List Criterion} (found : criteria now expressions = .ok required) :
    note.satisfiesAll now expressions = .ok (Criterion.selectsAll note required) := by
  cases expressions with
  | nil =>
      rw [← Except.ok.inj found]
      rfl
  | cons expression rest =>
      rcases bind_eq_ok.mp found with ⟨first, hasFirst, more⟩
      rcases bind_eq_ok.mp more with ⟨others, hasOthers, same⟩
      have onFirst := satisfies_of_criterion transparent now expression alike.1 hasFirst
      have onOthers := satisfiesAll_of_criteria transparent now rest alike.2 hasOthers
      rw [← Except.ok.inj same, Note.satisfiesAll, onFirst, onOthers, Criterion.selectsAll]
      -- The first expression that fails decides, and the others are not looked at.
      cases selected : first.selects note <;> rfl

end

/-! ## Queries -/

/-- Where there is a criterion of a query, a transparent note answers the query, and it answers yes
just when the criterion selects the note from an index that holds it. -/
theorem note_answers_as_index {note : Note} (transparent : Transparent note) {now : Time.Instant}
    {query : Query} (alike : AllMeanAlike note now query.expressions) {criterion : Criterion}
    (found : queryCriterion now query = .ok criterion) :
    ∃ answer, note.satisfiesQuery now query = .ok answer ∧
      ∀ contents : Contents, note ∈ contents.notes ->
        (answer = true ↔ note ∈ selected contents.notes criterion) := by
  unfold queryCriterion at found
  rcases bind_eq_ok.mp found with ⟨required, hasRequired, same⟩
  refine ⟨criterion.selects note, ?_, ?_⟩
  · rw [← Except.ok.inj same, Criterion.selects_conjunction, Note.satisfiesQuery]
    exact satisfiesAll_of_criteria transparent now query.expressions alike hasRequired
  · intro contents held
    rw [selected, List.mem_filter]
    constructor
    · intro selects
      exact ⟨held, selects⟩
    · intro isSelected
      exact isSelected.2

end Engine

/-- A note of a project. -/
def project : Note where
  path := "projects/Rust.md"
  title := "Async runtimes"
  body := "Notes on tokio"
  lead := ""
  tags := ["work"]
  metadata := [("status", .text "Active")]
  created := some ⟨1704186000, 0⟩
  modified := none
  checksum := ""

/-- What is asked of the project. -/
def projectQuery : Query :=
  .ofExpressions
    [.or (.wildcard "title" "run*S" .openEnd) (.field "tag" .equals "none"),
      .not (.field "status" .startsWith "done"),
      .date "created" .atLeast "2024-01-01",
      .exists "modified" true]

theorem project_transparent : Transparent project where
  path := by decide
  keysApart := by decide
  keys := by
    intro entry member
    rw [List.mem_singleton.mp member]
    exact ⟨by decide +kernel, by decide⟩
  lowKeys := by
    intro entry member
    rw [List.mem_singleton.mp member]
    decide +kernel
  pathLine := by decide
  tagLines := by decide
  metadataLines := by decide +kernel
  created := by
    intro instant member
    cases member
    exact ⟨rfl, by decide⟩
  modified := by
    intro instant member
    cases member
  short := by decide +kernel

theorem projectQuery_alike : AllMeanAlike project ⟨0, 0⟩ projectQuery.expressions := by
  have title : Note.patternField "title" = .title := by decide +kernel
  have status : Field.ofName "status" = .metadata "status" := by decide +kernel
  have tag : Field.ofName "tag" = .tags := by decide +kernel
  refine ⟨⟨?_, ?_⟩, ?_, ?_, trivial, trivial⟩
  · refine ⟨by decide +kernel, ⟨'r', by decide, by decide⟩, ?_, ?_, ?_, ?_⟩
    · rw [title]
      decide
    · rw [title]
      intro key isMetadata
      cases isMetadata
    · rw [title]
      decide +kernel
    · rw [title]
      decide +kernel
  · apply ComparesAlike.value
    · rw [tag]
      rfl
    · rw [tag]
      intro key isMetadata
      cases isMetadata
    · decide +kernel
  · apply ComparesAlike.value
    · rw [status]
      rfl
    · rw [status]
      rintro key ⟨rfl⟩
      exact ⟨by decide +kernel, by decide⟩
    · decide +kernel
  · intro window found
    have known : Note.windowOf ⟨0, 0⟩ "created" .atLeast "2024-01-01" =
        .ok ⟨.included ⟨1704067200, 0⟩, .unbounded⟩ := rfl
    rw [known] at found
    rw [← Except.ok.inj found]
    exact ⟨⟨rfl, by decide⟩, trivial⟩

open scoped PatternEngine

theorem project_answers_as_index :
    ∃ criterion, queryCriterion ⟨0, 0⟩ projectQuery = .ok criterion ∧
      ∃ answer, project.satisfiesQuery ⟨0, 0⟩ projectQuery = .ok answer ∧
        ∀ contents : Contents, project ∈ contents.notes ->
          (answer = true ↔ project ∈ selected contents.notes criterion) :=
  ⟨_, rfl, note_answers_as_index project_transparent projectQuery_alike rfl⟩

/-- A tag that is one byte too long to be indexed. -/
def longTag : String :=
  String.ofList (List.replicate (largestValue + 1) 'a')

/-- A note with the long tag. -/
def longTagged : Note :=
  { Note.ofPath "a.md" with tags := [longTag] }

/-- What every tag begins with. -/
def anyTagQuery : Query :=
  .ofExpressions [.field "tag" .startsWith ""]

theorem lower_longTag : Text.lower longTag = longTag := by
  apply Text.lower_of_isLow
  rw [longTag, String.toList_ofList]
  intro character member
  rw [List.eq_of_mem_replicate member]
  decide +kernel

theorem utf8ByteSize_replicate (count : Nat) :
    (String.ofList (List.replicate count 'a')).utf8ByteSize = count := by
  rw [String.utf8ByteSize_ofList]
  induction count with
  | zero => rfl
  | succ count inductionHypothesis =>
      rw [List.replicate_succ, String.utf8Len_cons, inductionHypothesis]
      rfl

theorem longTagged_terms : ValueSlot.tags.terms longTagged = [] := by
  rw [ValueSlot.terms, ValueSlot.values, longTagged, List.map_singleton, lower_longTag]
  apply List.filter_eq_nil_iff.mpr
  intro value member
  rw [List.mem_singleton.mp member, longTag, utf8ByteSize_replicate]
  decide

theorem longTagged_regular : Regular longTagged where
  path := by
    rw [longTagged]
    decide
  keysApart := List.nodup_nil
  keys := by
    intro entry member
    cases member
  lowKeys := by
    intro entry member
    cases member
  pathLine := by
    rw [longTagged]
    decide
  tagLines := by
    intro tag member
    rw [List.mem_singleton.mp member, longTag, String.toList_ofList]
    intro inTag
    cases List.eq_of_mem_replicate inTag
  metadataLines := by
    intro entry member
    cases member
  created := by
    intro instant member
    cases member
  modified := by
    intro instant member
    cases member

theorem anyTagQuery_alike : AllMeanAlike longTagged ⟨0, 0⟩ anyTagQuery.expressions := by
  have tag : Field.ofName "tag" = .tags := by decide +kernel
  refine ⟨.value ?_ ?_ ?_, trivial⟩
  · rw [tag]
    rfl
  · rw [tag]
    intro key isMetadata
    cases isMetadata
  · decide +kernel

/-- A note with a tag that is too long for the index answers otherwise than the index. -/
theorem long_tag_is_not_found :
    Regular longTagged ∧ AllMeanAlike longTagged ⟨0, 0⟩ anyTagQuery.expressions ∧
      longTagged.satisfiesQuery ⟨0, 0⟩ anyTagQuery = .ok true ∧
      ∃ criterion, queryCriterion ⟨0, 0⟩ anyTagQuery = .ok criterion ∧
        selected [longTagged] criterion = [] := by
  refine ⟨longTagged_regular, anyTagQuery_alike, ?_, ?_⟩
  · have tag : Field.ofName "tag" = .tags := by decide +kernel
    have begins : longTagged.satisfies ⟨0, 0⟩ (.field "tag" .startsWith "") = .ok true := by
      rw [Note.satisfies, Note.satisfiesField, tag]
      rfl
    rw [Note.satisfiesQuery, anyTagQuery, Query.ofExpressions, Note.satisfiesAll, begins]
    rfl
  · refine ⟨.pattern (.values .tags) (.startingWith ""), ?_, ?_⟩
    · rfl
    · rw [selected, List.filter_eq_nil_iff]
      intro note member
      rw [List.mem_singleton.mp member, Criterion.selects, PatternSlot.terms, longTagged_terms]
      exact Bool.false_ne_true

end Index
end Commonplace
