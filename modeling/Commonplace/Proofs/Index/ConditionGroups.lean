import Commonplace.Proofs.Index.Compiling
import Commonplace.Proofs.Index.Conditions
import Commonplace.Proofs.Index.Ranking

namespace Commonplace

/-!
# All of, any of, and none of some conditions

A list of conditions finds the notes that each condition of the first kind finds on its own, that
one condition of the second kind finds if there is one, and that no condition of the third kind
finds.  So the order of the conditions does not matter, within a kind or across kinds.  Reading the
flags and putting the query together succeed as a whole or not at all.
-/

open Index

namespace Condition

/-! ## Expressions of conditions -/

theorem field_cases : ∀ field ∈ allowedFields,
    (dataKey? field).isSome = true ∧ field ≠ "links-to" ∧ field ≠ "linked-by" ∨
      dataKey? field = none ∧ field ∈ ["path", "title", "links-to", "linked-by"] := by
  decide +kernel

/-- A condition that was read has an expression unless its field is about links. -/
theorem exists_expr_iff {condition : Condition} (read : condition.IsRead) :
    (∃ expression, condition.expr = .ok expression) ↔
      condition.field ≠ "links-to" ∧ condition.field ≠ "linked-by" := by
  unfold expr
  rcases field_cases condition.field read.known with ⟨data, noLink⟩ | ⟨noData, member⟩
  · rcases Option.isSome_iff_exists.mp data with ⟨key, asked⟩
    rw [asked]
    exact iff_of_true ⟨_, rfl⟩ noLink
  · rw [noData]
    simp only [List.mem_cons, List.not_mem_nil, or_false] at member
    rcases member with same | same | same | same
    all_goals rw [same]
    · exact iff_of_true ⟨_, rfl⟩ (by decide)
    · exact iff_of_true ⟨_, rfl⟩ (by decide)
    · exact iff_of_false (fun ⟨_, made⟩ => nomatch made) (by decide)
    · exact iff_of_false (fun ⟨_, made⟩ => nomatch made) (by decide)

theorem asksForText_pathExpr (value : String) : AsksForText (pathExpr value) := by
  have noDate : (Field.ofName "path").isDate = false := by
    rw [ofName_path]
    rfl
  unfold pathExpr
  dsimp only
  split
  · exact .field noDate (by split <;> rfl) value
  · split
    · exact .field noDate rfl _
    · exact .wildcard (by decide +kernel) value _

theorem asksForText_of_expr {condition : Condition} (read : condition.IsRead) {expression : Expr}
    (made : condition.expr = .ok expression) : AsksForText expression := by
  unfold expr at made
  cases asked : dataKey? condition.field with
  | some key =>
      rw [asked] at made
      cases made
      rcases dataKey_cases condition.field read.known key asked with ⟨tags | ⟨metadata, _⟩, _⟩
      · exact .field (by rw [tags]; rfl) rfl _
      · exact .field (by rw [metadata]; rfl) rfl _
  | none =>
      rw [asked] at made
      dsimp only at made
      split at made
      · cases made
        exact asksForText_pathExpr condition.value
      · split at made
        · cases made
          exact .field (by decide +kernel) rfl condition.value
        · split at made <;> cases made

section Engine

variable [PatternEngine]

/-- Whether the engine takes the pattern of a condition, if it has one. -/
def Compiles (condition : Condition) : Prop :=
  ∀ expression, condition.expr = .ok expression → PatternsCompile expression

/-- The expression of a condition that was read has a criterion, if its pattern compiles. -/
theorem exists_criterion_of_expr {condition : Condition} (read : condition.IsRead)
    (compiles : condition.Compiles) {expression : Expr} (made : condition.expr = .ok expression)
    (now : Time.Instant) : ∃ found, criterion now expression = .ok found :=
  ((asksForText_of_expr read made).exists_criterion_iff now).mpr (compiles expression made).own

/-- A query of conditions that were read has criteria, if their patterns compile. -/
theorem exists_criteria_of_conditions {conditions : List Condition} {query : Query}
    (made : Condition.query conditions = .ok query)
    (read : ∀ condition ∈ conditions, condition.IsRead)
    (compile : ∀ condition ∈ conditions, condition.Compiles) (now : Time.Instant) :
    ∃ required, criteria now query.expressions = .ok required := by
  have each := fun condition listed expression =>
    @exists_criterion_of_expr _ condition (read condition listed) (compile condition listed)
      expression
  apply exists_criteria_of_forall
  apply forall_mem_query made fun expression => ∃ found, criterion now expression = .ok found
  · exact fun condition listed _ expression hasExpression =>
      each condition listed expression hasExpression now
  · rintro left right ⟨first, hasFirst⟩ ⟨second, hasSecond⟩
    exact ⟨_, bind_eq_ok.mpr ⟨first, hasFirst, bind_eq_ok.mpr ⟨second, hasSecond, rfl⟩⟩⟩
  · intro condition listed _ expression hasExpression
    rcases each condition listed expression hasExpression now with ⟨found, translated⟩
    exact ⟨_, criterion_not translated⟩

/-! ## What a query of conditions selects -/

theorem selects_foldl_or {now : Time.Instant} {note : Note} (rest : List Expr) (first : Expr) :
    Selects now note (rest.foldl .or first) ↔
      Selects now note first ∨ ∃ expression ∈ rest, Selects now note expression := by
  induction rest generalizing first with
  | nil => simp
  | cons next others inductionHypothesis =>
      rw [List.foldl_cons, inductionHypothesis, Selects, List.exists_mem_cons_iff, or_assoc]

/-- Alternatives select what one of them selects, and everything when there are none. -/
theorem selects_alternatives {now : Time.Instant} {note : Note} (expressions : List Expr) :
    (∀ expression ∈ alternatives expressions, Selects now note expression) ↔
      (∃ expression ∈ expressions, Selects now note expression) ∨ expressions = [] := by
  cases expressions with
  | nil => exact iff_of_true (fun _ member => nomatch member) (.inr rfl)
  | cons first rest =>
      rw [alternatives, List.forall_mem_singleton, selects_foldl_or, List.exists_mem_cons_iff,
        or_iff_left (List.cons_ne_nil first rest)]

end Engine

theorem exists_query_iff {conditions : List Condition} :
    (∃ query, Condition.query conditions = .ok query) ↔
      ∀ condition ∈ conditions, ∃ expression, condition.expr = .ok expression := by
  have alone : ∀ condition : Condition,
      (∃ pair, (condition.expr.map fun expression => (condition, expression)) = .ok pair) ↔
        ∃ expression, condition.expr = .ok expression := by
    intro condition
    cases condition.expr with
    | ok expression => exact iff_of_true ⟨_, rfl⟩ ⟨_, rfl⟩
    | error fault =>
        exact iff_of_false (fun ⟨_, made⟩ => nomatch made) fun ⟨_, made⟩ => nomatch made
  rw [← forall₂_congr fun condition _ => alone condition, ← exists_mapM_iff]
  constructor
  · rintro ⟨query, made⟩
    rcases bind_eq_ok.mp made with ⟨pairs, hasPairs, _⟩
    exact ⟨pairs, hasPairs⟩
  · rintro ⟨pairs, hasPairs⟩
    exact ⟨_, bind_eq_ok.mpr ⟨pairs, hasPairs, rfl⟩⟩

section Engine

variable [PatternEngine]

/-- Whether the expression of a condition selects a note. -/
def SelectsNote (now : Time.Instant) (note : Note) (condition : Condition) : Prop :=
  ∃ expression, condition.expr = .ok expression ∧ Selects now note expression

theorem selectsNote_iff {now : Time.Instant} {note : Note} {condition : Condition}
    {expression : Expr} (made : condition.expr = .ok expression) :
    condition.SelectsNote now note ↔ Selects now note expression := by
  constructor
  · rintro ⟨other, same, selects⟩
    rw [made] at same
    rw [Except.ok.inj same]
    exact selects
  · exact fun selects => ⟨expression, made, selects⟩

end Engine

/-- Whether a note passes conditions by kind: all of the first, one of the second if there is one,
and none of the third. -/
structure PassesKinds (passes : Condition -> Prop) (conditions : List Condition) : Prop where
  all : ∀ condition ∈ conditions, condition.kind = .all → passes condition
  any : (∃ condition ∈ conditions, condition.kind = .any ∧ passes condition) ∨
    ∀ condition ∈ conditions, condition.kind ≠ .any
  none : ∀ condition ∈ conditions, condition.kind = .none → ¬passes condition

theorem passesKinds_iff {passes : Condition -> Prop} {conditions : List Condition} :
    PassesKinds passes conditions ↔
      (∀ condition ∈ conditions, condition.kind = .all → passes condition) ∧
        ((∃ condition ∈ conditions, condition.kind = .any ∧ passes condition) ∨
          ∀ condition ∈ conditions, condition.kind ≠ .any) ∧
        ∀ condition ∈ conditions, condition.kind = .none → ¬passes condition :=
  ⟨fun kinds => ⟨kinds.all, kinds.any, kinds.none⟩, fun parts => ⟨parts.1, parts.2.1, parts.2.2⟩⟩

theorem passesKinds_congr {passes others : Condition -> Prop} {conditions : List Condition}
    (alike : ∀ condition ∈ conditions, (passes condition ↔ others condition)) :
    PassesKinds passes conditions ↔ PassesKinds others conditions := by
  rw [passesKinds_iff, passesKinds_iff]
  refine and_congr ?_ (and_congr (or_congr_left ?_) ?_)
  · exact forall₂_congr fun condition listed => imp_congr_right fun _ => alike condition listed
  · exact exists_congr fun condition => and_congr_right fun listed =>
      and_congr_right fun _ => alike condition listed
  · exact forall₂_congr fun condition listed =>
      imp_congr_right fun _ => not_congr (alike condition listed)

theorem passesKinds_perm {passes : Condition -> Prop} {first second : List Condition}
    (same : first.Perm second) : PassesKinds passes first ↔ PassesKinds passes second := by
  simp only [passesKinds_iff, same.mem_iff]

/-- A query of conditions selects the notes that pass them by kind. -/
theorem selectsAll_query [PatternEngine] {conditions : List Condition} {query : Query}
    (made : Condition.query conditions = .ok query) (now : Time.Instant) (note : Note) :
    SelectsAll now note query.expressions ↔
      PassesKinds (SelectsNote now note) conditions := by
  have each := exists_query_iff.mp ⟨query, made⟩
  rcases exists_pairs_of_query made with ⟨pairs, parts, ofKind_iff⟩
  have noneAny : ofKind .any pairs = [] ↔ ∀ condition ∈ conditions, condition.kind ≠ .any := by
    rw [List.eq_nil_iff_forall_not_mem]
    constructor
    · intro empty condition listed isAny
      rcases each condition listed with ⟨expression, hasExpression⟩
      exact empty expression
        ((ofKind_iff .any expression).mpr ⟨condition, listed, isAny, hasExpression⟩)
    · intro notAny expression member
      rcases (ofKind_iff .any expression).mp member with ⟨condition, listed, isAny, _⟩
      exact notAny condition listed isAny
  rw [selectsAll_iff_forall, parts, List.forall_mem_append, List.forall_mem_append,
    List.forall_mem_map, selects_alternatives, noneAny]
  simp only [ofKind_iff, Selects]
  constructor
  · rintro ⟨⟨inAll, inAny⟩, inNone⟩
    refine ⟨?_, inAny.imp_left ?_, ?_⟩
    · intro condition listed isAll
      rcases each condition listed with ⟨expression, hasExpression⟩
      exact ⟨expression, hasExpression,
        inAll expression ⟨condition, listed, isAll, hasExpression⟩⟩
    · rintro ⟨expression, ⟨condition, listed, isAny, hasExpression⟩, selects⟩
      exact ⟨condition, listed, isAny, expression, hasExpression, selects⟩
    · rintro condition listed isNone ⟨expression, hasExpression, selects⟩
      exact inNone expression ⟨condition, listed, isNone, hasExpression⟩ selects
  · rintro ⟨all, any, none⟩
    refine ⟨⟨?_, any.imp_left ?_⟩, ?_⟩
    · rintro expression ⟨condition, listed, isAll, hasExpression⟩
      exact (selectsNote_iff hasExpression).mp (all condition listed isAll)
    · rintro ⟨condition, listed, isAny, expression, hasExpression, selects⟩
      exact ⟨expression, ⟨condition, listed, isAny, hasExpression⟩, selects⟩
    · rintro expression ⟨condition, listed, isNone, hasExpression⟩ selects
      exact none condition listed isNone ⟨expression, hasExpression, selects⟩

end Condition

/-! ## Searches -/

/-- The options that ask for a query and nothing else. -/
def SearchOptions.ofQuery (query : Query) : SearchOptions :=
  { SearchOptions.empty with query := some query }

namespace Index

section Engine

variable [PatternEngine]

/-- Whether a search for a query finds a note of an index. -/
def Finds (contents : Contents) (now : Time.Instant) (query : Query) (note : Note) : Prop :=
  ∃ found, optionsCriterion now (.ofQuery query) = .ok found ∧ note ∈ selected contents.notes found

/-- Whether a search for a query gives back each note that it finds once, in every order and as far
as the limit lets it, or fails because one of these notes is nested too deep. -/
def GivesBackFound (contents : Contents) (now : Time.Instant) (query : Query) : Prop :=
  ∃ found, optionsCriterion now (.ofQuery query) = .ok found ∧
    ∀ field direction limit, contents.notes.length < limit →
      let asked := (SearchOptions.ofQuery query).arranged field direction limit 0
      ((∀ note ∈ selected contents.notes found, Loadable note) →
        ∃ results, find contents now asked = .ok results ∧
          (results.hits.map Hit.note).Perm ((selected contents.notes found).map stored)) ∧
      ∀ note ∈ selected contents.notes found, ¬Loadable note →
        ∃ fault, find contents now asked = .error fault

/-- Options with nothing but a query have the criterion of the query. -/
theorem optionsCriterion_query {now : Time.Instant} {query : Query} {found : Criterion}
    (translated : queryCriterion now query = .ok found) :
    optionsCriterion now (.ofQuery query) = .ok found := by
  refine bind_eq_ok.mpr ⟨_, asked_of_query translated, ?_⟩
  cases empty : query.isEmpty with
  | true =>
      rw [queryCriterion, List.isEmpty_iff.mp empty] at translated
      exact translated
  | false => rfl

theorem finds_iff {contents : Contents} {now : Time.Instant} {query : Query}
    {required : List Criterion} (translated : criteria now query.expressions = .ok required)
    (note : Note) :
    Finds contents now query note ↔
      note ∈ contents.notes ∧ SelectsAll now note query.expressions := by
  have asked : queryCriterion now query = .ok (.conjunction required []) :=
    bind_eq_ok.mpr ⟨required, translated, rfl⟩
  rw [← selectsAll_iff_expressions note query.expressions translated,
    ← Criterion.selects_conjunction, ← mem_selected]
  constructor
  · rintro ⟨found, same, isSelected⟩
    rw [optionsCriterion_query asked] at same
    rwa [← Except.ok.inj same] at isSelected
  · exact fun isSelected => ⟨_, optionsCriterion_query asked, isSelected⟩

theorem givesBackFound {contents : Contents} {now : Time.Instant} {query : Query}
    {required : List Criterion} (translated : criteria now query.expressions = .ok required) :
    GivesBackFound contents now query := by
  have asked : queryCriterion now query = .ok (.conjunction required []) :=
    bind_eq_ok.mpr ⟨required, translated, rfl⟩
  refine ⟨_, optionsCriterion_query asked, fun field direction limit enough => ?_⟩
  have few : (selected contents.notes (.conjunction required [])).length ≤ limit :=
    (List.length_filter_le _ _).trans enough.le
  have limited : ((SearchOptions.ofQuery query).arranged field direction limit 0).effectiveLimit =
      limit := if_neg (by simpa [SearchOptions.arranged] using Nat.ne_zero_of_lt enough)
  constructor
  · intro loadable
    refine ⟨_, find_arranged (optionsCriterion_query asked) fun note loads =>
      loadable note (mem_selected_of_mem_notesToLoad loads), ?_⟩
    rw [limited, List.drop_zero, List.take_of_length_le ((length_ranking ..).trans_le few)]
    exact ranking_perm contents _ field direction
  · intro note member tooDeep
    exact exists_find_fault (optionsCriterion_query asked)
      ((mem_notesToLoad_iff rfl (few.trans_eq limited.symm) note).mpr member) tooDeep

end Engine

end Index

namespace Condition

/-- Whether a search for a condition alone, as one that has to hold, finds a note. -/
def FindsAlone [PatternEngine] (contents : Contents) (now : Time.Instant) (note : Note)
    (condition : Condition) : Prop :=
  ∃ query, Condition.query [{ condition with kind := .all }] = .ok query ∧
    Finds contents now query note

section Groups

variable [PatternEngine] {contents : Contents} {now : Time.Instant} {note : Note}
  {conditions : List Condition} (read : ∀ condition ∈ conditions, condition.IsRead)
  (compile : ∀ condition ∈ conditions, condition.Compiles)

include read compile

theorem finds_iff_passesKinds {query : Query} (made : Condition.query conditions = .ok query) :
    Finds contents now query note ↔
      note ∈ contents.notes ∧ PassesKinds (SelectsNote now note) conditions := by
  rcases exists_criteria_of_conditions made read compile now with ⟨required, translated⟩
  rw [finds_iff translated, selectsAll_query made]

theorem givesBackFound_query {query : Query} (made : Condition.query conditions = .ok query) :
    GivesBackFound contents now query := by
  rcases exists_criteria_of_conditions made read compile now with ⟨required, translated⟩
  exact givesBackFound translated

/-- Alone, a condition finds the notes that its expression selects. -/
theorem findsAlone_iff (listed : note ∈ contents.notes) {condition : Condition}
    (member : condition ∈ conditions) :
    condition.FindsAlone contents now note ↔ condition.SelectsNote now note := by
  have readAlone : ∀ other ∈ [{ condition with kind := ConditionKind.all }], other.IsRead := by
    intro other same
    rw [List.mem_singleton.mp same]
    exact ⟨(read condition member).known, (read condition member).trimmed,
      (read condition member).short⟩
  have compileAlone : ∀ other ∈ [{ condition with kind := ConditionKind.all }], other.Compiles := by
    intro other same
    rw [List.mem_singleton.mp same]
    exact compile condition member
  have passes : PassesKinds (SelectsNote now note) [{ condition with kind := .all }] ↔
      condition.SelectsNote now note := by
    constructor
    · intro passes
      exact passes.all { condition with kind := .all } (List.mem_singleton_self _) rfl
    · intro selects
      refine ⟨?_, .inr ?_, ?_⟩
      all_goals
        intro other same
        rw [List.mem_singleton.mp same]
      · exact fun _ => selects
      · exact fun other => nomatch other
      · exact fun other => nomatch other
  constructor
  · rintro ⟨query, made, finds⟩
    exact passes.mp ((finds_iff_passesKinds readAlone compileAlone made).mp finds).2
  · rintro ⟨expression, made, selects⟩
    rcases exists_query_iff.mpr fun other (same : other ∈ [{ condition with kind := .all }]) =>
      ⟨expression, by rw [List.mem_singleton.mp same]; exact made⟩ with ⟨query, hasQuery⟩
    exact ⟨query, hasQuery, (finds_iff_passesKinds readAlone compileAlone hasQuery).mpr
      ⟨listed, passes.mpr ⟨expression, made, selects⟩⟩⟩

/-- A query of conditions finds the notes that pass them by kind, each condition taken alone. -/
theorem finds_iff_findsAlone {query : Query} (made : Condition.query conditions = .ok query)
    (listed : note ∈ contents.notes) :
    Finds contents now query note ↔ PassesKinds (FindsAlone contents now note) conditions := by
  rw [finds_iff_passesKinds read compile made, and_iff_right listed]
  exact passesKinds_congr fun condition member => (findsAlone_iff read compile listed member).symm

/-- In another order, conditions make a query that finds the same. -/
theorem exists_query_of_perm {query : Query} (made : Condition.query conditions = .ok query)
    {other : List Condition} (same : other.Perm conditions) :
    ∃ reordered, Condition.query other = .ok reordered ∧
      ∀ note, Finds contents now reordered note ↔ Finds contents now query note := by
  have each := exists_query_iff.mp ⟨query, made⟩
  rcases exists_query_iff.mpr fun condition member => each condition (same.mem_iff.mp member) with
    ⟨reordered, hasReordered⟩
  refine ⟨reordered, hasReordered, fun note => ?_⟩
  rw [finds_iff_passesKinds read compile made,
    finds_iff_passesKinds (fun condition member => read condition (same.mem_iff.mp member))
      (fun condition member => compile condition (same.mem_iff.mp member)) hasReordered,
    passesKinds_perm same]

end Groups

/-- Flags are read when each of them can be read. -/
theorem exists_parseAll_iff {all any none : List String} :
    (∃ conditions, parseAll all any none = .ok conditions) ↔
      (∀ flag ∈ all, ∃ condition, parse .all flag = .ok condition) ∧
        (∀ flag ∈ any, ∃ condition, parse .any flag = .ok condition) ∧
        ∀ flag ∈ none, ∃ condition, parse .none flag = .ok condition := by
  rw [← exists_mapM_iff, ← exists_mapM_iff, ← exists_mapM_iff]
  constructor
  · rintro ⟨conditions, parsed⟩
    rcases bind_eq_ok.mp parsed with ⟨first, hasFirst, more⟩
    rcases bind_eq_ok.mp more with ⟨second, hasSecond, more⟩
    rcases bind_eq_ok.mp more with ⟨third, hasThird, _⟩
    exact ⟨⟨first, hasFirst⟩, ⟨second, hasSecond⟩, ⟨third, hasThird⟩⟩
  · rintro ⟨⟨first, hasFirst⟩, ⟨second, hasSecond⟩, ⟨third, hasThird⟩⟩
    exact ⟨_, bind_eq_ok.mpr ⟨first, hasFirst, bind_eq_ok.mpr ⟨second, hasSecond,
      bind_eq_ok.mpr ⟨third, hasThird, rfl⟩⟩⟩⟩

/-- Conditions mean all of, any of, and none of.  A search for conditions that were read, and whose
patterns compile, finds the notes that every condition of the first kind finds alone, that one of
the second kind finds if there is one, and that none of the third kind finds; in another order, the
conditions find the same.  What is found is given back, unless a note is nested too deep.  The flags
are read as a whole or not at all, and they make a query unless a field is about links. -/
theorem conditions_combine [PatternEngine] (now : Time.Instant) :
    (∀ all any none conditions query, parseAll all any none = .ok conditions →
      Condition.query conditions = .ok query →
      (∀ condition ∈ conditions, condition.Compiles) → ∀ contents : Contents,
        GivesBackFound contents now query ∧
        (∀ note ∈ contents.notes, Finds contents now query note ↔
          PassesKinds (FindsAlone contents now note) conditions) ∧
        ∀ other, other.Perm conditions → ∃ reordered, Condition.query other = .ok reordered ∧
          GivesBackFound contents now reordered ∧
          ∀ note, Finds contents now reordered note ↔ Finds contents now query note) ∧
    (∀ all any none, (∃ conditions, parseAll all any none = .ok conditions) ↔
      (∀ flag ∈ all, ∃ condition, parse .all flag = .ok condition) ∧
        (∀ flag ∈ any, ∃ condition, parse .any flag = .ok condition) ∧
        ∀ flag ∈ none, ∃ condition, parse .none flag = .ok condition) ∧
    ∀ all any none conditions, parseAll all any none = .ok conditions →
      ((∃ query, Condition.query conditions = .ok query) ↔
        ∀ condition ∈ conditions,
          condition.field ≠ "links-to" ∧ condition.field ≠ "linked-by") := by
  refine ⟨?_, fun all any none => exists_parseAll_iff, ?_⟩
  · intro all any none conditions query parsed made compile contents
    have read := isRead_of_parseAll parsed
    refine ⟨givesBackFound_query read compile made,
      fun note listed => finds_iff_findsAlone read compile made listed, fun other same => ?_⟩
    rcases exists_query_of_perm read compile made same with ⟨reordered, hasReordered, alike⟩
    exact ⟨reordered, hasReordered, givesBackFound_query
      (fun condition member => read condition (same.mem_iff.mp member))
      (fun condition member => compile condition (same.mem_iff.mp member)) hasReordered, alike⟩
  · intro all any none conditions parsed
    rw [exists_query_iff]
    exact forall₂_congr fun condition listed =>
      exists_expr_iff (isRead_of_parseAll parsed condition listed)

/-- The project next to a note that is done. -/
def projects : Contents :=
  ⟨[project, { project with path := "projects/Old.md", metadata := [("status", .text "done")] }],
    []⟩

/-- Work that is a project or a plan and not done is asked for. -/
def openWork : List Condition :=
  [⟨.all, "data.tag", "work"⟩, ⟨.any, "path", "projects/*"⟩, ⟨.any, "title", "Plan"⟩,
    ⟨.none, "data.status", "done"⟩]

open scoped PatternEngine

theorem compiles_permissive (condition : Condition) : condition.Compiles :=
  fun _ _ _ _ _ _ => rfl

/-- The project is found, since it passes the conditions one by one, and the note that is done is
not.  A field that is not known or that is about links fails the whole list. -/
theorem open_work_is_found :
    (∃ query, parseAll ["data.tag=work"] ["path = projects/*", "title=Plan"] ["data.status=done"] =
        .ok openWork ∧ Condition.query openWork = .ok query ∧
      GivesBackFound projects ⟨0, 0⟩ query ∧ Finds projects ⟨0, 0⟩ query project ∧
      PassesKinds (FindsAlone projects ⟨0, 0⟩ project) openWork) ∧
    (¬∃ conditions, parseAll ["data.tag=work"] ["colour=red"] [] = .ok conditions) ∧
    ¬∃ query, Condition.query [⟨.all, "data.tag", "work"⟩, ⟨.none, "links-to", "a.md"⟩] =
      .ok query := by
  have parsed : parseAll ["data.tag=work"] ["path = projects/*", "title=Plan"]
      ["data.status=done"] = .ok openWork := by decide +kernel
  have linked : parseAll ["data.tag=work"] [] ["links-to=a.md"] =
      .ok [⟨.all, "data.tag", "work"⟩, ⟨.none, "links-to", "a.md"⟩] := by decide +kernel
  have unknown : parse .any "colour=red" = .error (.unknownField "colour") := by decide +kernel
  have made : ∃ query, Condition.query openWork = .ok query ∧
      ∃ found, optionsCriterion ⟨0, 0⟩ (.ofQuery query) = .ok found ∧
        found.selects project = true :=
    ⟨_, rfl, _, rfl, by decide +kernel⟩
  rcases made with ⟨query, made, found, asked, selects⟩
  rcases conditions_combine ⟨0, 0⟩ with ⟨finds, reads, links⟩
  have listed : project ∈ projects.notes := List.mem_cons_self
  have found : Finds projects ⟨0, 0⟩ query project :=
    ⟨found, asked, mem_selected.mpr ⟨listed, selects⟩⟩
  have compile : ∀ condition ∈ openWork, condition.Compiles :=
    fun condition _ => compiles_permissive condition
  have whole := finds _ _ _ _ _ parsed made compile projects
  refine ⟨⟨query, parsed, made, whole.1, found, (whole.2.1 project listed).mp found⟩, ?_, ?_⟩
  · intro someRead
    rcases ((reads _ _ _).mp someRead).2.1 "colour=red" (List.mem_singleton_self _) with
      ⟨condition, accepted⟩
    rw [unknown] at accepted
    cases accepted
  · intro someQuery
    have noLink := (links _ _ _ _ linked).mp someQuery ⟨.none, "links-to", "a.md"⟩ (by decide)
    exact noLink.1 rfl

/-- Work. -/
def work : Condition :=
  ⟨.all, "data.tag", "work"⟩

/-- What is in the directory of the projects. -/
def inProjects : Condition :=
  ⟨.all, "path", "projects/"⟩

/-- The project next to a note about work that is nested too deep. -/
def withDeepNote : Contents :=
  ⟨[project, deepNote], []⟩

/-- A search for both conditions gives back the project.  A search for the first one alone fails,
since it finds the note beside the project as well. -/
theorem deep_note_fails_condition :
    parseAll ["data.tag=work", "path=projects/"] [] [] = .ok [work, inProjects] ∧
      ∃ both alone, Condition.query [work, inProjects] = .ok both ∧
        Condition.query [work] = .ok alone ∧
        (∃ results, find withDeepNote ⟨0, 0⟩
            ((SearchOptions.ofQuery both).arranged .path .ascending 10 0) = .ok results ∧
          results.hits.map Hit.note = [stored project]) ∧
        ∃ fault, find withDeepNote ⟨0, 0⟩
          ((SearchOptions.ofQuery alone).arranged .path .ascending 10 0) = .error fault := by
  have parsed : parseAll ["data.tag=work", "path=projects/"] [] [] = .ok [work, inProjects] := by
    decide +kernel
  have read := isRead_of_parseAll parsed
  have madeBoth : ∃ both, Condition.query [work, inProjects] = .ok both ∧
      ∃ found, optionsCriterion ⟨0, 0⟩ (.ofQuery both) = .ok found ∧
        found.selects project = true ∧ found.selects deepNote = false :=
    ⟨_, rfl, _, rfl, by decide +kernel, by decide +kernel⟩
  have madeAlone : ∃ alone, Condition.query [work] = .ok alone ∧
      ∃ found, optionsCriterion ⟨0, 0⟩ (.ofQuery alone) = .ok found ∧
        found.selects deepNote = true :=
    ⟨_, rfl, _, rfl, by decide +kernel⟩
  rcases madeBoth with ⟨both, hasBoth, found, asked, selectsProject, leavesDeep⟩
  rcases madeAlone with ⟨alone, hasAlone, wide, askedAlone, selectsDeep⟩
  refine ⟨parsed, both, alone, hasBoth, hasAlone, ?_, ?_⟩
  · have both : GivesBackFound withDeepNote ⟨0, 0⟩ both :=
      givesBackFound_query read (fun condition _ => compiles_permissive condition) hasBoth
    rcases both with ⟨other, askedOther, gives⟩
    cases asked.symm.trans askedOther
    have one : selected withDeepNote.notes found = [project] := by
      simp [withDeepNote, selected, selectsProject, leavesDeep]
    rcases (gives .path .ascending 10 (by decide)).1 (by rw [one]; decide) with
      ⟨results, answered, perm⟩
    rw [one] at perm
    exact ⟨results, answered, List.perm_singleton.mp perm⟩
  · have readAlone : ∀ condition ∈ [work], condition.IsRead := by
      intro condition member
      rw [List.mem_singleton.mp member]
      exact read work List.mem_cons_self
    have alone : GivesBackFound withDeepNote ⟨0, 0⟩ alone :=
      givesBackFound_query readAlone (fun condition _ => compiles_permissive condition) hasAlone
    rcases alone with ⟨other, askedOther, gives⟩
    cases askedAlone.symm.trans askedOther
    refine (gives .path .ascending 10 (by decide)).2 deepNote ?_ deepNote_not_loadable
    exact List.mem_filter.mpr ⟨List.mem_cons_of_mem _ List.mem_cons_self, selectsDeep⟩

end Condition
end Commonplace
