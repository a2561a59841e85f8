import Commonplace.Proofs.Index.Agreement

namespace Commonplace
namespace Index

/-!
# What a query and options select

Whether a note is selected depends on this note alone, and it is a matter of logic: queries and
options are Boolean combinations of their parts, and the filters of options are expressions that
could stand in their query.  Only windows of time and metadata are filters of their own.  They mean
what they say for dates that a 64-bit count of nanoseconds can hold and for values that are not too
long to be indexed.
-/

/-! ## Lists of criteria -/

namespace Criterion

theorem selectsAll_iff {note : Note} {criteria : List Criterion} :
    selectsAll note criteria = true ↔ ∀ criterion ∈ criteria, criterion.selects note = true := by
  induction criteria with
  | nil => simp [selectsAll]
  | cons first rest inductionHypothesis =>
      rw [selectsAll, Bool.and_eq_true, inductionHypothesis, List.forall_mem_cons]

theorem selectsSome_iff {note : Note} {criteria : List Criterion} :
    selectsSome note criteria = true ↔ ∃ criterion ∈ criteria, criterion.selects note = true := by
  induction criteria with
  | nil => simp [selectsSome]
  | cons first rest inductionHypothesis =>
      rw [selectsSome, Bool.or_eq_true, inductionHypothesis, List.exists_mem_cons_iff]

/-- A conjunction selects what all of its criteria select and none that it excludes. -/
theorem selects_conjunction_iff {note : Note} {required excluded : List Criterion} :
    (conjunction required excluded).selects note = true ↔
      (∀ criterion ∈ required, criterion.selects note = true) ∧
        ∀ criterion ∈ excluded, criterion.selects note = false := by
  rw [selects_conjunction_excluding, Bool.and_eq_true, selectsAll_iff, Bool.not_eq_true',
    ← Bool.not_eq_true, selectsSome_iff]
  simp

end Criterion

/-! ## Expressions -/

section Engine

variable [PatternEngine]

/-- Whether the criterion of an expression selects a note. -/
def IsSelected (now : Time.Instant) (note : Note) (expression : Expr) : Prop :=
  ∃ found, criterion now expression = .ok found ∧ found.selects note = true

mutual

/-- Whether an expression selects a note, as a Boolean combination of its parts. -/
def Selects (now : Time.Instant) (note : Note) : Expr -> Prop
  | .not inner => ¬Selects now note inner
  | .or left right => Selects now note left ∨ Selects now note right
  | .and expressions => SelectsAll now note expressions
  | .exists name true => ¬IsSelected now note (.exists name false)
  | expression => IsSelected now note expression

/-- Whether all of some expressions select a note. -/
def SelectsAll (now : Time.Instant) (note : Note) : List Expr -> Prop
  | [] => True
  | expression :: rest => Selects now note expression ∧ SelectsAll now note rest

end

theorem isSelected_iff {now : Time.Instant} {expression : Expr} {found : Criterion}
    (translated : criterion now expression = .ok found) (note : Note) :
    found.selects note = true ↔ IsSelected now note expression := by
  constructor
  · exact fun selects => ⟨found, translated, selects⟩
  · rintro ⟨other, same, selects⟩
    rw [translated] at same
    rw [Except.ok.inj same]
    exact selects

mutual

/-- The criterion of an expression selects what the expression selects. -/
theorem selects_iff {now : Time.Instant} (note : Note) (expression : Expr) {found : Criterion}
    (translated : criterion now expression = .ok found) :
    found.selects note = true ↔ Selects now note expression := by
  cases expression with
  | not inner =>
      rcases bind_eq_ok.mp translated with ⟨inside, hasInside, same⟩
      rw [← Except.ok.inj same, Criterion.selects_negation, Bool.not_eq_true', ← Bool.not_eq_true,
        selects_iff note inner hasInside, Selects]
  | or left right =>
      rcases bind_eq_ok.mp translated with ⟨first, hasFirst, rest⟩
      rcases bind_eq_ok.mp rest with ⟨second, hasSecond, same⟩
      rw [← Except.ok.inj same, Criterion.selects_disjunction, Bool.or_eq_true,
        selects_iff note left hasFirst, selects_iff note right hasSecond, Selects]
  | and expressions =>
      rcases bind_eq_ok.mp translated with ⟨required, hasRequired, same⟩
      rw [← Except.ok.inj same, Criterion.selects_conjunction,
        selectsAll_iff_expressions note expressions hasRequired, Selects]
  | «exists» name negated =>
      cases negated with
      | false => exact isSelected_iff translated note
      | true =>
          have present : criterion now (.exists name false) =
            .ok (.term .presence (Field.ofName name).presenceKey) := rfl
          rw [← Except.ok.inj translated, presenceCriterion, if_pos rfl,
            Criterion.selects_negation, Bool.not_eq_true', ← Bool.not_eq_true,
            isSelected_iff present, Selects]
  | term | field | date | range | wildcard => exact isSelected_iff translated note

theorem selectsAll_iff_expressions {now : Time.Instant} (note : Note) (expressions : List Expr)
    {required : List Criterion} (translated : criteria now expressions = .ok required) :
    Criterion.selectsAll note required = true ↔ SelectsAll now note expressions := by
  cases expressions with
  | nil =>
      rw [← Except.ok.inj translated]
      exact iff_of_true rfl trivial
  | cons expression rest =>
      rcases bind_eq_ok.mp translated with ⟨first, hasFirst, more⟩
      rcases bind_eq_ok.mp more with ⟨others, hasOthers, same⟩
      rw [← Except.ok.inj same, Criterion.selectsAll, Bool.and_eq_true,
        selects_iff note expression hasFirst, selectsAll_iff_expressions note rest hasOthers,
        SelectsAll]

end

theorem selectsAll_iff_forall {now : Time.Instant} {note : Note} {expressions : List Expr} :
    SelectsAll now note expressions ↔ ∀ expression ∈ expressions, Selects now note expression := by
  induction expressions with
  | nil => exact iff_of_true trivial fun _ member => nomatch member
  | cons first rest inductionHypothesis =>
      rw [SelectsAll, inductionHypothesis, List.forall_mem_cons]

/-! ## Filters as expressions -/

theorem criteria_append {now : Time.Instant} {first second : List Expr}
    {one two : List Criterion} (hasFirst : criteria now first = .ok one)
    (hasSecond : criteria now second = .ok two) :
    criteria now (first ++ second) = .ok (one ++ two) := by
  induction first generalizing one with
  | nil =>
      rw [← Except.ok.inj hasFirst]
      exact hasSecond
  | cons expression rest inductionHypothesis =>
      rcases bind_eq_ok.mp hasFirst with ⟨head, hasHead, more⟩
      rcases bind_eq_ok.mp more with ⟨tail, hasTail, same⟩
      rw [← Except.ok.inj same]
      exact bind_eq_ok.mpr ⟨head, hasHead, bind_eq_ok.mpr
        ⟨tail ++ two, inductionHypothesis hasTail, rfl⟩⟩

/-- What all criteria of some expressions select is selected by each of the expressions. -/
theorem isSelected_of_criteria {now : Time.Instant} {note : Note}
    {expressions : List Expr} {required : List Criterion}
    (translated : criteria now expressions = .ok required)
    (selected : ∀ criterion ∈ required, criterion.selects note = true) :
    ∀ expression ∈ expressions, IsSelected now note expression := by
  induction expressions generalizing required with
  | nil => exact fun _ member => nomatch member
  | cons expression rest inductionHypothesis =>
      rcases bind_eq_ok.mp translated with ⟨first, hasFirst, more⟩
      rcases bind_eq_ok.mp more with ⟨others, hasOthers, same⟩
      cases same
      have parts := List.forall_mem_cons.mp selected
      exact List.forall_mem_cons.mpr
        ⟨⟨first, hasFirst, parts.1⟩, inductionHypothesis hasOthers parts.2⟩

theorem exists_criteria_of_forall {now : Time.Instant} {expressions : List Expr}
    (each : ∀ expression ∈ expressions, ∃ found, criterion now expression = .ok found) :
    ∃ required, criteria now expressions = .ok required := by
  induction expressions with
  | nil => exact ⟨[], rfl⟩
  | cons expression rest inductionHypothesis =>
      have parts := List.forall_mem_cons.mp each
      rcases parts.1 with ⟨head, hasHead⟩
      rcases inductionHypothesis parts.2 with ⟨tail, hasTail⟩
      exact ⟨_, bind_eq_ok.mpr ⟨head, hasHead, bind_eq_ok.mpr ⟨tail, hasTail, rfl⟩⟩⟩

theorem criteria_map {now : Time.Instant} {item : Type} {written : item -> Expr}
    {found : item -> Criterion} {values : List item}
    (translated : ∀ value ∈ values, criterion now (written value) = .ok (found value)) :
    criteria now (values.map written) = .ok (values.map found) := by
  induction values with
  | nil => rfl
  | cons value rest inductionHypothesis =>
      have parts := List.forall_mem_cons.mp translated
      exact bind_eq_ok.mpr ⟨found value, parts.1, bind_eq_ok.mpr
        ⟨rest.map found, inductionHypothesis parts.2, rfl⟩⟩

theorem criterion_not {now : Time.Instant} {inner : Expr} {found : Criterion}
    (translated : criterion now inner = .ok found) :
    criterion now (.not inner) = .ok found.negation :=
  bind_eq_ok.mpr ⟨found, translated, rfl⟩

end Engine

end Index

namespace SearchOptions

/-- The path starts that are asked for; the empty one asks for nothing. -/
def askedStarts (options : SearchOptions) : List String :=
  options.pathStart.toList.filter fun start => !start.isEmpty

/-- The filters by tag and path, as expressions of a query. -/
def filters (options : SearchOptions) : List Expr :=
  options.tags.map (Expr.field "tag" .equals) ++
    options.excludedTags.map (fun tag => .not (.field "tag" .equals tag)) ++
    options.askedStarts.map (Expr.field "path" .startsWith) ++
    options.excludedPaths.map (fun start => .not (.field "path" .startsWith start))

/-- The query of some options, with their filters by tag and path as expressions. -/
def filteredQuery (options : SearchOptions) : Query :=
  .ofExpressions (options.query.elim [] Query.expressions ++ options.filters)

end SearchOptions

namespace Index

/-- The criterion of a tag. -/
def tagCriterion (tag : String) : Criterion :=
  .term .tags (Text.lower tag)

theorem criterion_tag [PatternEngine] (now : Time.Instant) (tag : String) :
    criterion now (.field "tag" .equals tag) = .ok (tagCriterion tag) := by
  have field : Field.ofName "tag" = .tags := by decide +kernel
  rw [criterion, fieldCriterion, field]
  rfl

theorem ofName_path : Field.ofName "path" = .path := by
  decide +kernel

/-- The criterion of the paths that start with a text, when the engine takes their pattern. -/
def startCriterion (start : String) : Criterion :=
  .pattern (.values .pathLower) (pathPattern start)

section Engine

variable [PatternEngine]

theorem pathStartCriterion_eq_ok {start : String} {found : Criterion} :
    pathStartCriterion start = .ok found ↔
      (pathPattern start).Compiles ∧ startCriterion start = found :=
  compiled_eq_ok

theorem pathStartCriterion_of_compiles {start : String}
    (compiles : (pathPattern start).Compiles) :
    pathStartCriterion start = .ok (startCriterion start) :=
  compiled_of_compiles compiles _

theorem criterion_pathStart (now : Time.Instant) (start : String) :
    criterion now (.field "path" .startsWith start) = pathStartCriterion start := by
  rw [criterion, fieldCriterion, ofName_path]
  rfl

/-- Path filters have criteria just when the engine takes the patterns of them all. -/
theorem mapM_pathStart_eq_ok {starts : List String} {found : List Criterion} :
    starts.mapM pathStartCriterion = .ok found ↔
      (∀ start ∈ starts, (pathPattern start).Compiles) ∧ starts.map startCriterion = found := by
  induction starts generalizing found with
  | nil =>
      rw [List.mapM_nil, List.map_nil]
      exact ⟨fun same => ⟨fun _ member => (nomatch member), Except.ok.inj same⟩,
        fun parts => congrArg Except.ok parts.2⟩
  | cons start rest inductionHypothesis =>
      rw [List.mapM_cons, List.forall_mem_cons, List.map_cons]
      constructor
      · intro both
        rcases bind_eq_ok.mp both with ⟨first, hasFirst, more⟩
        rcases bind_eq_ok.mp more with ⟨others, hasOthers, same⟩
        rcases pathStartCriterion_eq_ok.mp hasFirst with ⟨compiles, rfl⟩
        rcases inductionHypothesis.mp hasOthers with ⟨compile, rfl⟩
        exact ⟨⟨compiles, compile⟩, Except.ok.inj same⟩
      · rintro ⟨⟨compiles, compile⟩, rfl⟩
        exact bind_eq_ok.mpr ⟨_, pathStartCriterion_of_compiles compiles, bind_eq_ok.mpr
          ⟨_, inductionHypothesis.mpr ⟨compile, rfl⟩, rfl⟩⟩

/-- Whether the engine takes the patterns of the path filters of some options. -/
structure FiltersCompile (options : SearchOptions) : Prop where
  starts : ∀ start ∈ options.askedStarts, (pathPattern start).Compiles
  excluded : ∀ start ∈ options.excludedPaths, (pathPattern start).Compiles

/-- The criterion of some options whose path filters have one, with what their query asks for. -/
def filteredCriterion (options : SearchOptions) (asked : List Criterion) : Criterion :=
  .conjunction
    (asked ++ options.tags.map tagCriterion ++ options.askedStarts.map startCriterion ++
      betweenCriterion .created options.createdAfter options.createdBefore ++
      betweenCriterion .modified options.modifiedAfter options.modifiedBefore ++
      options.metadata.map fun entry => .term .metadata (metadataTerm entry.1 entry.2))
    (options.excludedTags.map tagCriterion ++ options.excludedPaths.map startCriterion)

/-- Options have a criterion just when their query has one and the engine takes the patterns of
their path filters. -/
theorem optionsCriterion_eq_ok {now : Time.Instant} {options : SearchOptions}
    {found : Criterion} :
    optionsCriterion now options = .ok found ↔
      ∃ asked, (options.query.toList.filter fun query => !query.isEmpty).mapM
          (queryCriterion now) = .ok asked ∧
        FiltersCompile options ∧ filteredCriterion options asked = found := by
  unfold optionsCriterion
  constructor
  · intro translated
    rcases bind_eq_ok.mp translated with ⟨asked, hasAsked, more⟩
    rcases bind_eq_ok.mp more with ⟨starts, hasStarts, more⟩
    rcases bind_eq_ok.mp more with ⟨excluded, hasExcluded, same⟩
    rcases mapM_pathStart_eq_ok.mp hasStarts with ⟨startsCompile, rfl⟩
    rcases mapM_pathStart_eq_ok.mp hasExcluded with ⟨excludedCompile, rfl⟩
    exact ⟨asked, hasAsked, ⟨startsCompile, excludedCompile⟩, Except.ok.inj same⟩
  · rintro ⟨asked, hasAsked, compile, rfl⟩
    exact bind_eq_ok.mpr ⟨asked, hasAsked,
      bind_eq_ok.mpr ⟨_, mapM_pathStart_eq_ok.mpr ⟨compile.starts, rfl⟩,
        bind_eq_ok.mpr ⟨_, mapM_pathStart_eq_ok.mpr ⟨compile.excluded, rfl⟩, rfl⟩⟩⟩

theorem criteria_filters (now : Time.Instant) {options : SearchOptions}
    (compile : FiltersCompile options) :
    criteria now options.filters = .ok (options.tags.map tagCriterion ++
      options.excludedTags.map (fun tag => (tagCriterion tag).negation) ++
      options.askedStarts.map startCriterion ++
      options.excludedPaths.map (fun start => (startCriterion start).negation)) := by
  have tags := criteria_map fun tag (_ : tag ∈ options.tags) => criterion_tag now tag
  have noTags := criteria_map fun tag (_ : tag ∈ options.excludedTags) =>
    criterion_not (criterion_tag now tag)
  have criterion_start : ∀ {start}, (pathPattern start).Compiles →
      criterion now (.field "path" .startsWith start) = .ok (startCriterion start) :=
    fun compiles => (criterion_pathStart now _).trans (pathStartCriterion_of_compiles compiles)
  have starts := criteria_map fun start (listed : start ∈ options.askedStarts) =>
    criterion_start (compile.starts start listed)
  have noStarts := criteria_map fun start (listed : start ∈ options.excludedPaths) =>
    criterion_not (criterion_start (compile.excluded start listed))
  exact criteria_append (criteria_append (criteria_append tags noTags) starts) noStarts

/-- The query of some options is left out when it is empty, and else it is one criterion. -/
theorem asked_of_query {now : Time.Instant} {query : Query} {found : Criterion}
    (translated : queryCriterion now query = .ok found) :
    ((some query).toList.filter fun query => !query.isEmpty).mapM (queryCriterion now) =
      .ok (if query.isEmpty then [] else [found]) := by
  cases empty : query.isEmpty with
  | true =>
      rw [Option.toList_some, List.filter_cons_of_neg (by simp [empty])]
      rfl
  | false =>
      rw [Option.toList_some, List.filter_cons_of_pos (by simp [empty]), List.filter_nil,
        List.mapM_cons, translated]
      rfl

/-- The query of some options, which is left out when it is empty, selects what its expressions
select. -/
theorem exists_criteria_of_query {now : Time.Instant} {query : Option Query}
    {asked : List Criterion}
    (translated : (query.toList.filter fun query => !query.isEmpty).mapM (queryCriterion now) =
      .ok asked) :
    ∃ required, criteria now (query.elim [] Query.expressions) = .ok required ∧
      ∀ note, (∀ criterion ∈ asked, criterion.selects note = true) ↔
        ∀ criterion ∈ required, criterion.selects note = true := by
  cases query with
  | none =>
      cases translated
      exact ⟨[], rfl, fun _ => Iff.rfl⟩
  | some query =>
      by_cases empty : query.isEmpty = true
      · have none : query.expressions = [] := List.isEmpty_iff.mp empty
        rw [Option.toList_some, List.filter_cons_of_neg (by simp [empty])] at translated
        cases translated
        rw [Option.elim_some, none]
        exact ⟨[], rfl, fun _ => Iff.rfl⟩
      · rw [Option.toList_some, List.filter_cons_of_pos (by simp [empty]), List.filter_nil,
          List.mapM_cons] at translated
        rcases bind_eq_ok.mp translated with ⟨whole, hasWhole, rest⟩
        rcases bind_eq_ok.mp hasWhole with ⟨required, hasRequired, same⟩
        have single : [whole] = asked := Except.ok.inj rest
        refine ⟨required, hasRequired, ?_⟩
        intro note
        rw [← single, List.forall_mem_singleton, ← Except.ok.inj same,
          Criterion.selects_conjunction_iff]
        simp

end Engine

/-! ## Windows and metadata -/

/-- Whether a date lies between the ends that are set, in whole seconds and with both ends
included. -/
def LiesBetween (start stop date : Option Time.Instant) : Prop :=
  start = none ∧ stop = none ∨
    ∃ instant ∈ date, (∀ first ∈ start, first.seconds ≤ instant.seconds) ∧
      ∀ last ∈ stop, instant.seconds ≤ last.seconds

/-- Whether the ends that are set, and the date when one is, can be held. -/
structure HoldsWindow (start stop date : Option Time.Instant) : Prop where
  earliest : ∀ first ∈ start, Holdable first
  latest : ∀ last ∈ stop, Holdable last
  date : start ≠ none ∨ stop ≠ none → ∀ instant ∈ date, Holdable instant

theorem notAfter_wholeSecond (first second : Int) :
    (⟨first, 0⟩ : Time.Instant).notAfter ⟨second, 0⟩ = true ↔ first ≤ second := by
  simp [Time.Instant.notAfter, Time.Instant.before]

theorem admitsAbove_held {start : Option Time.Instant}
    (holdable : ∀ first ∈ start, Holdable first) (second : Int) :
    (Time.Bound.map heldInstant (start.elim .unbounded .included)).admitsAbove ⟨second, 0⟩ = true ↔
      ∀ first ∈ start, first.seconds ≤ second := by
  cases start with
  | none => simp [Time.Bound.map, Time.Bound.admitsAbove]
  | some first =>
      rw [Option.elim_some, Time.Bound.map, heldInstant_of_holdable (holdable first rfl),
        Time.Bound.admitsAbove, notAfter_wholeSecond]
      simp

theorem admitsBelow_held {stop : Option Time.Instant}
    (holdable : ∀ last ∈ stop, Holdable last) (second : Int) :
    (Time.Bound.map heldInstant (stop.elim .unbounded .included)).admitsBelow ⟨second, 0⟩ = true ↔
      ∀ last ∈ stop, second ≤ last.seconds := by
  cases stop with
  | none => simp [Time.Bound.map, Time.Bound.admitsBelow]
  | some last =>
      rw [Option.elim_some, Time.Bound.map, heldInstant_of_holdable (holdable last rfl),
        Time.Bound.admitsBelow, notAfter_wholeSecond]
      simp

theorem withinHeld_ofEnds {start stop : Option Time.Instant}
    (earliest : ∀ first ∈ start, Holdable first) (latest : ∀ last ∈ stop, Holdable last)
    (second : Int) :
    withinHeld (.ofEnds start stop) second = true ↔
      (∀ first ∈ start, first.seconds ≤ second) ∧ ∀ last ∈ stop, second ≤ last.seconds := by
  rw [← admitsAbove_held earliest, ← admitsBelow_held latest, ← Bool.and_eq_true]
  rfl

/-- A window of time selects the notes whose date lies in it. -/
theorem selects_between_iff {note : Note} {slot : DateSlot} {start stop date : Option Time.Instant}
    (seconds : slot.second note = date.map heldSecond) (holds : HoldsWindow start stop date) :
    (∀ criterion ∈ betweenCriterion slot start stop, criterion.selects note = true) ↔
      LiesBetween start stop date := by
  by_cases unset : start = none ∧ stop = none
  · rw [betweenCriterion, if_pos (by simp [unset])]
    exact iff_of_true (fun _ member => nomatch member) (.inl unset)
  · rw [betweenCriterion, if_neg (by simpa using unset), List.forall_mem_singleton,
      Criterion.selects, seconds, LiesBetween, or_iff_right unset]
    cases date with
    | none => simp
    | some instant =>
        have holdable := holds.date (not_and_or.mp unset) instant rfl
        rw [Option.map_some, Option.any_some, heldSecond_eq holdable.1 holdable.2,
          withinHeld_ofEnds holds.earliest holds.latest]
        simp

theorem selects_term_iff {note : Note} {slot : ValueSlot} {value : String}
    (short : value.utf8ByteSize ≤ largestValue) :
    (Criterion.term slot value).selects note = true ↔ value ∈ slot.values note := by
  rw [Criterion.selects, List.contains_iff_mem, ValueSlot.terms, List.mem_filter]
  simp [short]

/-- Whether a note passes the filters of some options by date and metadata. -/
structure PassesFilters (options : SearchOptions) (note : Note) : Prop where
  created : LiesBetween options.createdAfter options.createdBefore note.created
  modified : LiesBetween options.modifiedAfter options.modifiedBefore note.modified
  metadata : ∀ asked ∈ options.metadata, ∃ entry ∈ note.metadata, ∃ text ∈ entry.2.flatten,
    metadataTerm entry.1 text = metadataTerm asked.1 asked.2

/-- Whether an index holds what the filters of some options by date and metadata ask for. -/
structure WithinReach (options : SearchOptions) (note : Note) : Prop where
  created : HoldsWindow options.createdAfter options.createdBefore note.created
  modified : HoldsWindow options.modifiedAfter options.modifiedBefore note.modified
  metadata : ∀ asked ∈ options.metadata,
    (metadataTerm asked.1 asked.2).utf8ByteSize ≤ largestValue

theorem mem_metadataTerms {note : Note} {term : String} :
    term ∈ metadataTerms note ↔
      ∃ entry ∈ note.metadata, ∃ text ∈ entry.2.flatten, metadataTerm entry.1 text = term := by
  simp only [metadataTerms, List.mem_flatMap, List.mem_map]

/-! ## Options -/

theorem mem_selected {notes : List Note} {criterion : Criterion} {note : Note} :
    note ∈ selected notes criterion ↔ note ∈ notes ∧ criterion.selects note = true :=
  List.mem_filter

section Engine

variable [PatternEngine]

/-- The criterion of options selects what their query with its filters does, among the notes that
pass the filters by date and metadata. -/
theorem exists_filteredQuery_criterion {now : Time.Instant} {options : SearchOptions}
    {found : Criterion} (translated : optionsCriterion now options = .ok found) :
    ∃ whole, queryCriterion now options.filteredQuery = .ok whole ∧
      ∀ note, WithinReach options note →
        (found.selects note = true ↔ whole.selects note = true ∧ PassesFilters options note) := by
  rcases optionsCriterion_eq_ok.mp translated with ⟨asked, hasAsked, compile, rfl⟩
  rcases exists_criteria_of_query hasAsked with ⟨required, hasRequired, askedIff⟩
  refine ⟨_, bind_eq_ok.mpr
    ⟨_, criteria_append hasRequired (criteria_filters now compile), rfl⟩, ?_⟩
  intro note reach
  have heldCreated : DateSlot.created.second note = note.created.map heldSecond := rfl
  have heldModified : DateSlot.modified.second note = note.modified.map heldSecond := rfl
  have created := selects_between_iff heldCreated reach.created
  have modified := selects_between_iff heldModified reach.modified
  have metadata : (∀ asked ∈ options.metadata,
      (Criterion.term .metadata (metadataTerm asked.1 asked.2)).selects note = true) ↔
        ∀ asked ∈ options.metadata, ∃ entry ∈ note.metadata, ∃ text ∈ entry.2.flatten,
          metadataTerm entry.1 text = metadataTerm asked.1 asked.2 := by
    exact forall₂_congr fun asked member =>
      (selects_term_iff (reach.metadata asked member)).trans mem_metadataTerms
  have passes : PassesFilters options note ↔ _ ∧ _ ∧ _ :=
    ⟨fun passes => ⟨passes.created, passes.modified, passes.metadata⟩,
      fun parts => ⟨parts.1, parts.2.1, parts.2.2⟩⟩
  rw [filteredCriterion, passes, ← created, ← modified, ← metadata]
  simp only [Criterion.selects_conjunction_iff, List.forall_mem_append, List.forall_mem_map,
    askedIff, Criterion.selects_negation, Bool.not_eq_true']
  constructor
  · rintro ⟨⟨⟨⟨⟨⟨query, tags⟩, starts⟩, inCreated⟩, inModified⟩, entries⟩, noTags, noStarts⟩
    exact ⟨⟨⟨query, ⟨⟨tags, noTags⟩, starts⟩, noStarts⟩, fun _ member => nomatch member⟩,
      inCreated, inModified, entries⟩
  · rintro ⟨⟨⟨query, ⟨⟨tags, noTags⟩, starts⟩, noStarts⟩, _⟩, inCreated, inModified, entries⟩
    exact ⟨⟨⟨⟨⟨⟨query, tags⟩, starts⟩, inCreated⟩, inModified⟩, entries⟩, noTags, noStarts⟩

/-- Selection has Boolean set semantics.  What an expression or a query selects from some notes are
the notes that it selects one by one: a negation the others, a disjunction those of either side, a
conjunction and a query those of all parts.  The notes with a field and those without it are two
parts of the whole.  Options select what their query selects together with their filters by tag and
path, as far as the filters by date and metadata let it pass. -/
theorem selection_is_boolean (now : Time.Instant) :
    (∀ expression found, criterion now expression = .ok found → ∀ notes note,
      (note ∈ selected notes found ↔ note ∈ notes ∧ Selects now note expression)) ∧
    (∀ query found, queryCriterion now query = .ok found → ∀ notes note,
      (note ∈ selected notes found ↔ note ∈ notes ∧ SelectsAll now note query.expressions)) ∧
    (∀ name, ∃ present absent, criterion now (.exists name false) = .ok present ∧
      criterion now (.exists name true) = .ok absent ∧ ∀ notes note, note ∈ notes →
        (note ∈ selected notes absent ↔ note ∉ selected notes present)) ∧
    (∀ options found, optionsCriterion now options = .ok found →
      ∃ whole, queryCriterion now options.filteredQuery = .ok whole ∧
        ∀ notes note, WithinReach options note →
          (note ∈ selected notes found ↔
            note ∈ selected notes whole ∧ PassesFilters options note)) := by
  simp only [mem_selected]
  refine ⟨?_, ?_, ?_, ?_⟩
  · intro expression found translated notes note
    rw [selects_iff note expression translated]
  · intro query found translated notes note
    rcases bind_eq_ok.mp translated with ⟨required, hasRequired, same⟩
    rw [← Except.ok.inj same, Criterion.selects_conjunction,
      selectsAll_iff_expressions note query.expressions hasRequired]
  · intro name
    refine ⟨_, _, rfl, rfl, fun notes note held => ?_⟩
    rw [presenceCriterion, if_pos rfl, Criterion.selects_negation]
    simp [held, presenceCriterion]
  · intro options found translated
    rcases exists_filteredQuery_criterion translated with ⟨whole, hasWhole, same⟩
    refine ⟨whole, hasWhole, fun notes note reach => ?_⟩
    rw [same note reach, and_assoc]

end Engine

/-- What is asked of the project: no tag it has, the time it was created, and its status. -/
def projectFilters : SearchOptions :=
  { SearchOptions.empty with
    excludedTags := ["done"]
    excludedPaths := ["archive/"]
    createdAfter := some ⟨1704186000, 999⟩
    metadata := [("Status", " active ")] }

theorem project_withinReach : WithinReach projectFilters project where
  created :=
    ⟨fun first member => by cases member; decide, fun _ member => (nomatch member),
      fun _ instant member => by cases member; decide⟩
  modified :=
    ⟨fun _ member => (nomatch member), fun _ member => (nomatch member),
      fun _ _ member => (nomatch member)⟩
  metadata := by
    rintro asked member
    rw [List.mem_singleton.mp member]
    decide +kernel

theorem project_passesFilters : PassesFilters projectFilters project where
  created := .inr ⟨⟨1704186000, 0⟩, rfl, fun first member => by cases member; decide,
    fun _ member => (nomatch member)⟩
  modified := .inl ⟨rfl, rfl⟩
  metadata := by
    intro asked member
    rw [List.mem_singleton.mp member]
    exact ⟨("status", .text "Active"), List.mem_singleton_self _, "Active", by decide +kernel,
      by decide +kernel⟩

open scoped PatternEngine

theorem project_is_selected :
    ∃ found, optionsCriterion ⟨0, 0⟩ projectFilters = .ok found ∧
      project ∈ selected [project] found := by
  refine ⟨_, rfl, ?_⟩
  rcases (selection_is_boolean ⟨0, 0⟩).2.2.2 projectFilters _ rfl with ⟨whole, hasWhole, same⟩
  refine (same [project] project project_withinReach).mpr ⟨?_, project_passesFilters⟩
  have known : queryCriterion ⟨0, 0⟩ projectFilters.filteredQuery = .ok (.conjunction
      [(tagCriterion "done").negation, (startCriterion "archive/").negation] []) := rfl
  rw [known] at hasWhole
  rw [← Except.ok.inj hasWhole, mem_selected]
  exact ⟨List.mem_singleton_self _, by decide +kernel⟩

/-- Whether a note is not selected although its query selects it and it passes the filters. -/
def IsMissed (options : SearchOptions) (note : Note) : Prop :=
  ∃ found whole, optionsCriterion ⟨0, 0⟩ options = .ok found ∧
    queryCriterion ⟨0, 0⟩ options.filteredQuery = .ok whole ∧
    note ∈ selected [note] whole ∧ PassesFilters options note ∧ note ∉ selected [note] found

/-- A note whose status is too long to be indexed. -/
def longValued : Note :=
  { Note.ofPath "a.md" with metadata := [("status", .text longTag)] }

/-- The long status is asked for. -/
def longValueFilter : SearchOptions :=
  { SearchOptions.empty with metadata := [("status", longTag)] }

theorem isTrimmed_longTag : Text.IsTrimmed longTag.toList := by
  apply Text.IsTrimmed.of_forall
  rw [longTag, String.toList_ofList]
  intro character member
  rw [List.eq_of_mem_replicate member]
  decide

theorem metadataTerm_longTag :
    largestValue < (metadataTerm "status" longTag).utf8ByteSize := by
  rw [metadataTerm, Text.trim_of_isTrimmed isTrimmed_longTag, lower_longTag,
    String.utf8ByteSize_append, longTag, utf8ByteSize_replicate]
  omega

theorem flatten_longTag : Json.flatten (.text longTag) = [longTag] := by
  have notBlank : Text.isBlankText longTag = false := by
    rw [Text.isBlankText, longTag, String.toList_ofList, List.replicate_succ, List.all_cons]
    rfl
  rw [Json.flatten, notBlank, Text.trim_of_isTrimmed isTrimmed_longTag]
  rfl

theorem longValued_passes : PassesFilters longValueFilter longValued where
  created := .inl ⟨rfl, rfl⟩
  modified := .inl ⟨rfl, rfl⟩
  metadata := by
    intro asked member
    rw [List.mem_singleton.mp member]
    refine ⟨("status", .text longTag), List.mem_singleton_self _, longTag, ?_, rfl⟩
    rw [flatten_longTag]
    exact List.mem_singleton_self _

/-- A value that is too long to be indexed selects nothing. -/
theorem selects_term_of_long {value : String} (long : largestValue < value.utf8ByteSize)
    (slot : ValueSlot) (note : Note) : (Criterion.term slot value).selects note = false := by
  rw [Criterion.selects, ← Bool.not_eq_true, List.contains_iff_mem, ValueSlot.terms,
    List.mem_filter, decide_eq_true_eq]
  exact fun found => absurd long (Nat.not_lt.mpr found.2)

/-- An index misses a note whose metadata is too long for it. -/
theorem long_value_is_missed : IsMissed longValueFilter longValued := by
  have asked : optionsCriterion ⟨0, 0⟩ longValueFilter =
      .ok (.term .metadata (metadataTerm "status" longTag)) := rfl
  refine ⟨_, _, asked, rfl, List.mem_singleton_self _, longValued_passes, ?_⟩
  rw [mem_selected, selects_term_of_long metadataTerm_longTag]
  exact fun found => absurd found.2 Bool.false_ne_true

end Index
end Commonplace
