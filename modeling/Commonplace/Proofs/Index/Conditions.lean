import Commonplace.Condition.Basic
import Commonplace.Proofs.Index.Selection
import Commonplace.Proofs.Query.Readers

namespace Commonplace

/-!
# Conditions on what an index finds

A condition on metadata or on a path without stars is a test of a note, which answers whatever the
time.  Conditions are put together to a query by alternatives and negations.  An index that selects
a note by such a query gives back a note that passes it, as long as what is excluded can be seen in
the terms of the note and what is asked for reads back as it was written.
-/

open Index

namespace Condition

/-! ## Conditions that were read -/

/-- What reading a flag makes sure of. -/
structure IsRead (condition : Condition) : Prop where
  known : condition.field ∈ allowedFields
  trimmed : Text.trim condition.value = condition.value
  short : condition.value.utf8ByteSize ≤ valueLimit

theorem isRead_of_parse {kind : ConditionKind} {flag : String} {condition : Condition}
    (found : parse kind flag = .ok condition) : condition.IsRead := by
  unfold parse at found
  split at found
  · cases found
  · rename_i sides _
    dsimp only at found
    split at found
    · cases found
    · rename_i known
      split at found
      · cases found
      · rename_i short
        split at found
        · cases found
        · cases found
          refine ⟨by simpa using known, ?_, Nat.not_lt.mp short⟩
          exact Text.trim_of_isTrimmed (by
            rw [String.toList_ofList]
            exact Text.isTrimmed_trimChars _)

/-- What a list is turned into comes from its items. -/
theorem exists_of_mem_mapM {fault first second : Type} {change : first -> Except fault second}
    {items : List first} {results : List second} (succeeds : items.mapM change = .ok results) :
    ∀ result ∈ results, ∃ item ∈ items, change item = .ok result := by
  induction items generalizing results with
  | nil =>
      cases succeeds
      intro result member
      cases member
  | cons item rest inductionHypothesis =>
      rw [List.mapM_cons] at succeeds
      rcases bind_eq_ok.mp succeeds with ⟨head, hasHead, more⟩
      rcases bind_eq_ok.mp more with ⟨tail, hasTail, same⟩
      cases same
      intro result member
      rcases List.mem_cons.mp member with rfl | later
      · exact ⟨item, List.mem_cons_self, hasHead⟩
      · rcases inductionHypothesis hasTail result later with ⟨origin, inRest, made⟩
        exact ⟨origin, List.mem_cons_of_mem item inRest, made⟩

/-- Each item of a list is turned into one of the results. -/
theorem exists_mem_of_mapM {fault first second : Type} {change : first -> Except fault second}
    {items : List first} {results : List second} (succeeds : items.mapM change = .ok results) :
    ∀ item ∈ items, ∃ result ∈ results, change item = .ok result := by
  induction items generalizing results with
  | nil => exact fun _ member => nomatch member
  | cons item rest inductionHypothesis =>
      rw [List.mapM_cons] at succeeds
      rcases bind_eq_ok.mp succeeds with ⟨head, hasHead, more⟩
      rcases bind_eq_ok.mp more with ⟨tail, hasTail, same⟩
      cases same
      intro origin member
      rcases List.mem_cons.mp member with rfl | inRest
      · exact ⟨head, List.mem_cons_self, hasHead⟩
      · rcases inductionHypothesis hasTail origin inRest with ⟨result, later, made⟩
        exact ⟨result, List.mem_cons_of_mem head later, made⟩

/-- A list is turned into another one when each of its items is. -/
theorem exists_mapM_iff {fault first second : Type} {change : first -> Except fault second}
    {items : List first} :
    (∃ results, items.mapM change = .ok results) ↔
      ∀ item ∈ items, ∃ result, change item = .ok result := by
  constructor
  · rintro ⟨results, succeeds⟩ item member
    rcases exists_mem_of_mapM succeeds item member with ⟨result, _, made⟩
    exact ⟨result, made⟩
  · intro each
    induction items with
    | nil => exact ⟨[], rfl⟩
    | cons item rest inductionHypothesis =>
        rcases each item List.mem_cons_self with ⟨head, hasHead⟩
        rcases inductionHypothesis fun later member =>
          each later (List.mem_cons_of_mem item member) with ⟨tail, hasTail⟩
        refine ⟨head :: tail, ?_⟩
        rw [List.mapM_cons]
        exact bind_eq_ok.mpr ⟨head, hasHead, bind_eq_ok.mpr ⟨tail, hasTail, rfl⟩⟩

theorem isRead_of_parseAll {all any none : List String} {conditions : List Condition}
    (found : parseAll all any none = .ok conditions) :
    ∀ condition ∈ conditions, condition.IsRead := by
  have read : ∀ {kind : ConditionKind} {flags : List String} {found : List Condition},
      flags.mapM (parse kind) = .ok found → ∀ condition ∈ found, condition.IsRead := by
    intro kind flags found parsed condition member
    rcases exists_of_mem_mapM parsed condition member with ⟨flag, _, made⟩
    exact isRead_of_parse made
  rcases bind_eq_ok.mp found with ⟨first, hasFirst, more⟩
  rcases bind_eq_ok.mp more with ⟨second, hasSecond, more⟩
  rcases bind_eq_ok.mp more with ⟨third, hasThird, same⟩
  cases same
  intro condition member
  rw [List.mem_append, List.mem_append] at member
  rcases member with (inFirst | inSecond) | inThird
  · exact read hasFirst condition inFirst
  · exact read hasSecond condition inSecond
  · exact read hasThird condition inThird

/-! ## Tests -/

/-- Whether a condition is on metadata, or on a path without stars and question marks. -/
def IsPlain (condition : Condition) : Prop :=
  (dataKey? condition.field).isSome = true ∨
    condition.field = "path" ∧ condition.value.toList.any isStandIn = false

instance (condition : Condition) : Decidable condition.IsPlain :=
  inferInstanceAs (Decidable (_ ∨ _))

/-- The expressions of plain conditions. -/
inductive IsTest (condition : Condition) : Expr -> Prop where
  | tag {name : String} (field : Field.ofName name = .tags) :
      IsTest condition (.field name .equals condition.value)
  | data {name key : String} (asked : dataKey? condition.field = some key) (noTag : key ≠ "tag")
      (field : Field.ofName name = .metadata key) (isKey : IsKey key)
      (small : key.utf8ByteSize ≤ valueLimit) :
      IsTest condition (.field name .equals condition.value)
  | path (asked : condition.field = "path")
      (noSlash : condition.value.toList.getLast? ≠ some '/') :
      IsTest condition (.field "path" .equals condition.value)
  | directory (asked : condition.field = "path")
      (slash : condition.value.toList.getLast? = some '/') :
      IsTest condition (.field "path" .startsWith condition.value)

theorem dataKey_cases : ∀ field ∈ allowedFields, ∀ key ∈ dataKey? field,
    (Field.ofName ("metadata." ++ key) = .tags ∨
        Field.ofName ("metadata." ++ key) = .metadata key ∧ key ≠ "tag") ∧
      Text.trim key = key ∧ '=' ∉ key.toList ∧ key.utf8ByteSize ≤ valueLimit := by
  decide +kernel

/-- A plain condition that was read is a test. -/
theorem isTest_of_expr {condition : Condition} (read : condition.IsRead)
    (plain : condition.IsPlain) {expression : Expr} (made : condition.expr = .ok expression) :
    condition.IsTest expression := by
  unfold expr at made
  cases asked : dataKey? condition.field with
  | some key =>
      rw [asked] at made
      cases made
      rcases dataKey_cases condition.field read.known key asked with
        ⟨field, trimmed, noEquals, small⟩
      rcases field with tags | ⟨metadata, noTag⟩
      · exact .tag tags
      · exact .data asked noTag metadata ⟨trimmed, noEquals⟩ small
  | none =>
      rw [asked] at made
      rcases plain with data | ⟨path, noStandIn⟩
      · rw [asked] at data
        cases data
      · rw [path] at made
        cases made
        rw [pathExpr, noStandIn]
        by_cases slash : condition.value.toList.getLast? = some '/'
        · rw [slash]
          exact .directory path slash
        · have noSlash : (condition.value.toList.getLast? == some '/') = false :=
            beq_eq_false_iff_ne.mpr slash
          rw [noSlash]
          exact .path path slash

/-! ## Queries of conditions -/

/-- A query holds the expressions of its conditions, kind by kind. -/
theorem exists_pairs_of_query {conditions : List Condition} {query : Query}
    (made : Condition.query conditions = .ok query) :
    ∃ pairs : List (Condition × Expr),
      query.expressions = ofKind .all pairs ++ alternatives (ofKind .any pairs) ++
        (ofKind .none pairs).map .not ∧
      ∀ kind expression, expression ∈ ofKind kind pairs ↔
        ∃ condition ∈ conditions, condition.kind = kind ∧ condition.expr = .ok expression := by
  rcases bind_eq_ok.mp made with ⟨pairs, hasPairs, same⟩
  cases same
  refine ⟨pairs, rfl, fun kind expression => ⟨fun member => ?_, ?_⟩⟩
  · rcases List.mem_map.mp member with ⟨pair, inKind, rfl⟩
    rcases List.mem_filter.mp inKind with ⟨listed, isKind⟩
    rcases exists_of_mem_mapM hasPairs pair listed with ⟨condition, inConditions, changed⟩
    rcases QueryLanguage.map_eq_ok.mp changed with ⟨expression, hasExpression, rfl⟩
    exact ⟨condition, inConditions, beq_iff_eq.mp isKind, hasExpression⟩
  · rintro ⟨condition, inConditions, rfl, hasExpression⟩
    rcases exists_mem_of_mapM hasPairs condition inConditions with ⟨pair, listed, changed⟩
    rw [hasExpression] at changed
    cases changed
    exact List.mem_map.mpr ⟨_, List.mem_filter.mpr ⟨listed, beq_self_eq_true _⟩, rfl⟩

/-- What holds of the expressions of conditions, and is kept by alternatives, holds of the query. -/
theorem forall_mem_query {conditions : List Condition} {query : Query}
    (made : Condition.query conditions = .ok query) (property : Expr -> Prop)
    (asked : ∀ condition ∈ conditions, condition.kind ≠ .none → ∀ expression,
      condition.expr = .ok expression → property expression)
    (either : ∀ left right, property left → property right → property (.or left right))
    (excluded : ∀ condition ∈ conditions, condition.kind = .none → ∀ expression,
      condition.expr = .ok expression → property (.not expression)) :
    ∀ expression ∈ query.expressions, property expression := by
  rcases exists_pairs_of_query made with ⟨pairs, parts, ofKind_iff⟩
  have plain : ∀ kind, kind ≠ .none → ∀ expression ∈ ofKind kind pairs, property expression := by
    intro kind notNone expression member
    rcases (ofKind_iff kind expression).mp member with ⟨condition, listed, rfl, hasExpression⟩
    exact asked condition listed notNone expression hasExpression
  -- Alternatives are joined from the left, so the first of them is what the induction changes.
  have joined : ∀ (rest : List Expr) (first : Expr), property first →
      (∀ expression ∈ rest, property expression) → property (rest.foldl .or first) := by
    intro rest
    induction rest with
    | nil => exact fun first holds _ => holds
    | cons next others inductionHypothesis =>
        intro first holds allHold
        have parts := List.forall_mem_cons.mp allHold
        exact inductionHypothesis _ (either first next holds parts.1) parts.2
  intro expression member
  rw [parts, List.mem_append, List.mem_append] at member
  rcases member with (inAll | inAny) | inNone
  · exact plain .all (by decide) expression inAll
  · have alternativesHold := plain .any (by decide)
    cases listed : ofKind .any pairs with
    | nil =>
        rw [listed] at inAny
        cases inAny
    | cons first rest =>
        rw [listed] at inAny alternativesHold
        have parts := List.forall_mem_cons.mp alternativesHold
        rw [List.mem_singleton.mp inAny]
        exact joined rest first parts.1 parts.2
  · rcases List.mem_map.mp inNone with ⟨inner, innerMember, rfl⟩
    rcases (ofKind_iff .none inner).mp innerMember with ⟨condition, listed, isNone, hasExpression⟩
    exact excluded condition listed isNone inner hasExpression

end Condition

/-! ## Answers of a note -/

namespace Note

/-- Whether a note passes an expression that is put together of fields that hold no dates. -/
def passes (note : Note) : Expr -> Bool
  | .field name comparison value =>
      (note.values (Field.ofName name)).any fun text =>
        compares (Field.ofName name) comparison (Text.lower (Text.trim value)).toList
          (Text.lower text).toList
  | .not inner => !note.passes inner
  | .or left right => note.passes left || note.passes right
  | _ => false

/-- Whether every note answers an expression at every time. -/
def IsTimeless (expression : Expr) : Prop :=
  ∀ (note : Note) now, note.satisfies now expression = .ok (note.passes expression)

theorem isTimeless_field {name value : String} {comparison : Comparison}
    (noDate : (Field.ofName name).isDate = false) (noOrder : comparison.isOrdering = false) :
    IsTimeless (.field name comparison value) := by
  intro note now
  rw [satisfies, satisfiesField]
  dsimp only
  rw [noDate, noOrder, if_neg Bool.false_ne_true, if_neg Bool.false_ne_true]
  rfl

theorem isTimeless_or {left right : Expr} (onLeft : IsTimeless left) (onRight : IsTimeless right) :
    IsTimeless (.or left right) := by
  intro note now
  rw [satisfies, onLeft note now, onRight note now, passes]
  cases note.passes left <;> rfl

theorem isTimeless_not {inner : Expr} (timeless : IsTimeless inner) : IsTimeless (.not inner) := by
  intro note now
  rw [satisfies, timeless note now]
  rfl

theorem satisfiesAll_of_isTimeless {expressions : List Expr}
    (timeless : ∀ expression ∈ expressions, IsTimeless expression) (note : Note)
    (now : Time.Instant) : note.satisfiesAll now expressions = .ok (expressions.all note.passes) := by
  induction expressions with
  | nil => rfl
  | cons expression rest inductionHypothesis =>
      have parts := List.forall_mem_cons.mp timeless
      rw [satisfiesAll, parts.1 note now, List.all_cons]
      cases note.passes expression with
      | true => exact inductionHypothesis parts.2
      | false => rfl

end Note

namespace Condition

theorem IsTest.isTimeless {condition : Condition} {expression : Expr}
    (test : condition.IsTest expression) : Note.IsTimeless expression := by
  cases test with
  | tag field => exact Note.isTimeless_field (by rw [field]; rfl) rfl
  | data _ _ field => exact Note.isTimeless_field (by rw [field]; rfl) rfl
  | path | directory => exact Note.isTimeless_field (by decide +kernel) rfl

theorem isTimeless_of_query {conditions : List Condition} {query : Query}
    (made : Condition.query conditions = .ok query)
    (tests : ∀ condition ∈ conditions, ∀ expression, condition.expr = .ok expression →
      condition.IsTest expression) :
    ∀ expression ∈ query.expressions, Note.IsTimeless expression := by
  apply forall_mem_query made Note.IsTimeless
  · intro condition listed _ expression hasExpression
    exact (tests condition listed expression hasExpression).isTimeless
  · exact fun left right onLeft onRight => Note.isTimeless_or onLeft onRight
  · intro condition listed _ expression hasExpression
    exact Note.isTimeless_not (tests condition listed expression hasExpression).isTimeless

end Condition

/-! ## What is read back -/

namespace Index

theorem heldFields_eq_map (fields : List (String × Json)) :
    heldFields fields = fields.map fun field => (field.1, heldValue field.2) := by
  induction fields with
  | nil => simp [heldFields]
  | cons field rest inductionHypothesis => rw [heldFields, inductionHypothesis, List.map_cons]

/-- A metadata value with the texts that it was written with has the same texts when it is read
back with the note. -/
theorem mem_metadataValues_stored {note : Note} (keyed : Keyed note) {key : String}
    (kept : ∀ entry ∈ note.metadata, entry.1 = key →
      (heldValue entry.2).flatten = entry.2.flatten) (text : String) :
    text ∈ (stored note).metadataValues key ↔ text ∈ note.metadataValues key := by
  have metadata : (stored note).metadata =
      note.metadata.map fun field => (field.1, heldValue field.2) := heldFields_eq_map _
  have apart : ((stored note).metadata.map Prod.fst).Nodup := by
    rw [metadata, List.map_map]
    exact keyed.keysApart
  rw [mem_metadataValues apart, mem_metadataValues keyed.keysApart, metadata]
  constructor
  · rintro ⟨_, member, same, inValue⟩
    rcases List.mem_map.mp member with ⟨entry, inMetadata, rfl⟩
    rw [kept entry inMetadata same] at inValue
    exact ⟨entry, inMetadata, same, inValue⟩
  · rintro ⟨entry, inMetadata, same, inValue⟩
    refine ⟨_, List.mem_map_of_mem inMetadata, same, ?_⟩
    rw [kept entry inMetadata same]
    exact inValue

theorem criterion_equals [PatternEngine] (now : Time.Instant) (name : String)
    (noDate : (Field.ofName name).isDate = false) (value : String) :
    criterion now (.field name .equals value) = equalityCriterion (Field.ofName name) value := by
  rw [criterion, fieldCriterion, noDate, if_neg Bool.false_ne_true]

/-! ## Paths as terms -/

section Paths

variable {note : Note}

theorem terms_pathLower (short : (Text.lower note.path).utf8ByteSize ≤ largestValue) :
    ValueSlot.pathLower.terms note = [Text.lower note.path] :=
  List.filter_eq_self.mpr fun term member => by
    rw [List.mem_singleton.mp member]
    exact decide_eq_true short

theorem terms_pathLower_of_long (long : largestValue < (Text.lower note.path).utf8ByteSize) :
    ValueSlot.pathLower.terms note = [] :=
  List.filter_eq_nil_iff.mpr fun term member => by
    rw [List.mem_singleton.mp member, decide_eq_true_eq]
    exact Nat.not_le.mpr long

/-- No pattern finds a path that is too long for a term. -/
theorem selects_pathLower_of_long (long : largestValue < (Text.lower note.path).utf8ByteSize)
    (shape : TermPattern) : (Criterion.pattern (.values .pathLower) shape).selects note = false := by
  rw [Criterion.selects, PatternSlot.terms, terms_pathLower_of_long long]
  rfl

/-- A path that an index can see is found by a beginning just when it begins so, both in lower
case. -/
theorem selects_pathStart {start : String} (noBreak : '\n' ∉ note.path.toList)
    (short : (Text.lower note.path).utf8ByteSize ≤ largestValue) :
    (startCriterion start).selects note = true ↔
      (Text.lower start).toList <+: (Text.lower note.path).toList := by
  have free := isFree_of_not_mem (Text.not_mem_lower noBreak)
  rw [startCriterion, Criterion.selects, PatternSlot.terms, terms_pathLower short, List.any_cons,
    List.any_nil, Bool.or_false, pathPattern, TermPattern.accepts_startingWith free]
  exact List.isPrefixOf_iff_prefix

end Paths

end Index

namespace Condition

/-! ## What an index says of a test -/

/-- Whether a note has a path, and metadata keys that no term could take for others. -/
structure IsFiled (note : Note) : Prop extends Keyed note where
  path : note.path ≠ ""

/-- Whether an index can tell what a condition says of a note: the metadata value that is asked for
reads back as it was written, and a path in an excluded directory is short enough for a term and has
no line feed in it. -/
structure InReach (condition : Condition) (note : Note) : Prop where
  kept : ∀ key, dataKey? condition.field = some key → key ≠ "tag" →
    ∀ entry ∈ note.metadata, entry.1 = key → (heldValue entry.2).flatten = entry.2.flatten
  visible : condition.kind = .none → condition.field = "path" →
    condition.value.toList.getLast? = some '/' →
      '\n' ∉ note.path.toList ∧ (Text.lower note.path).utf8ByteSize ≤ largestValue

section Tests

variable {condition : Condition} (read : condition.IsRead) {now : Time.Instant} {note : Note}

include read

theorem short_lower : (Text.lower condition.value).utf8ByteSize ≤ largestValue := by
  have size := Text.utf8ByteSize_lower_le condition.value
  have short := read.short
  rw [valueLimit] at short
  rw [largestValue]
  omega

theorem short_metadataTerm {key : String} (isKey : IsKey key) (low : Text.lower key = key)
    (small : key.utf8ByteSize ≤ valueLimit) :
    (metadataTerm key condition.value).utf8ByteSize ≤ largestValue := by
  have size := Text.utf8ByteSize_lower_le condition.value
  have short := read.short
  have mark : "=".utf8ByteSize = 1 := by decide
  rw [valueLimit] at short small
  rw [metadataTerm, isKey.trimmed, low, read.trimmed, String.utf8ByteSize_append,
    String.utf8ByteSize_append, mark, largestValue]
  omega

/-- What a note passes is a matter of its values in lower case. -/
theorem passes_field (note : Note) (name : String) (comparison : Comparison) :
    note.passes (.field name comparison condition.value) = true ↔
      ∃ text ∈ note.values (Field.ofName name),
        Note.compares (Field.ofName name) comparison (Text.lower condition.value).toList
          (Text.lower text).toList = true := by
  rw [Note.passes, read.trimmed, List.any_eq_true]

theorem isSelected_tag [PatternEngine] {name : String} (field : Field.ofName name = .tags) :
    IsSelected now note (.field name .equals condition.value) ↔
      (stored note).passes (.field name .equals condition.value) = true := by
  have translated := criterion_equals now name (by rw [field]; rfl) condition.value
  rw [field] at translated
  rw [← isSelected_iff translated, selects_term_iff (short_lower read), passes_field read, field]
  change Text.lower condition.value ∈ note.tags.map Text.lower ↔
    ∃ text ∈ storedTags note.tags,
      ((Text.lower text).toList == (Text.lower condition.value).toList) = true
  simp only [beq_iff_eq, String.toList_inj, mem_storedTags, List.mem_map]
  constructor
  · rintro ⟨tag, member, same⟩
    exact ⟨Text.lower tag, ⟨tag, member, rfl⟩, by rw [Text.lower_lower, same]⟩
  · rintro ⟨_, ⟨tag, member, rfl⟩, same⟩
    exact ⟨tag, member, by rw [← same, Text.lower_lower]⟩

theorem isSelected_data [PatternEngine] (filed : IsFiled note) (reach : condition.InReach note)
    {name key : String} (asked : dataKey? condition.field = some key) (noTag : key ≠ "tag")
    (field : Field.ofName name = .metadata key) (isKey : IsKey key)
    (small : key.utf8ByteSize ≤ valueLimit) :
    IsSelected now note (.field name .equals condition.value) ↔
      (stored note).passes (.field name .equals condition.value) = true := by
  have low := lower_of_ofName field
  have translated := criterion_equals now name (by rw [field]; rfl) condition.value
  rw [field] at translated
  rw [← isSelected_iff translated, selects_term_iff (short_metadataTerm read isKey low small),
    passes_field read, field, metadataTerm, isKey.trimmed, low, read.trimmed]
  change _ ∈ metadataTerms note ↔ ∃ text ∈ (stored note).metadataValues key,
    ((Text.lower text).toList == (Text.lower condition.value).toList) = true
  simp only [beq_iff_eq, String.toList_inj, filed.toKeyed.mem_metadataTerms isKey,
    mem_metadataValues_stored filed.toKeyed (reach.kept key asked noTag)]
  simp only [eq_comm]

omit read in
theorem values_path (hasPath : note.path ≠ "") : (stored note).values .path = [note.path] :=
  textValues_of_ne hasPath

section Engine

variable [PatternEngine]

theorem isSelected_path (hasPath : note.path ≠ "")
    (noSlash : condition.value.toList.getLast? ≠ some '/') :
    IsSelected now note (.field "path" .equals condition.value) ↔
      (stored note).passes (.field "path" .equals condition.value) = true := by
  -- No letter becomes a slash in lower case, so the value is looked for as a whole path.
  have lowNoSlash : ((Text.lower condition.value).toList.getLast? == some '/') = false :=
    beq_eq_false_iff_ne.mpr fun slash => noSlash (Text.getLast?_of_lower slash)
  have translated := criterion_equals now "path" (by rw [ofName_path]; rfl) condition.value
  rw [ofName_path, equalityCriterion, lowNoSlash, if_neg Bool.false_ne_true] at translated
  rw [← isSelected_iff translated, selects_term_iff (short_lower read), passes_field read,
    ofName_path, values_path hasPath]
  simp only [List.mem_singleton, exists_eq_left]
  change Text.lower condition.value ∈ [Text.lower note.path] ↔
    (if (Text.lower condition.value).toList.getLast? == some '/' then
      (Text.lower condition.value).toList.isPrefixOf (Text.lower note.path).toList
      else (Text.lower note.path).toList == (Text.lower condition.value).toList) = true
  rw [lowNoSlash, if_neg Bool.false_ne_true, List.mem_singleton, beq_iff_eq, String.toList_inj]
  exact eq_comm

/-- What is found in a directory is there. -/
theorem passes_of_isSelected_directory (hasPath : note.path ≠ "")
    (isSelected : IsSelected now note (.field "path" .startsWith condition.value)) :
    (stored note).passes (.field "path" .startsWith condition.value) = true := by
  rcases isSelected with ⟨found, translated, selects⟩
  rw [criterion_pathStart] at translated
  rcases pathStartCriterion_eq_ok.mp translated with ⟨_, rfl⟩
  rw [startCriterion, Criterion.selects, List.any_eq_true] at selects
  rcases selects with ⟨term, member, accepted⟩
  have isPath : term = Text.lower note.path :=
    List.mem_singleton.mp (List.mem_filter.mp member).1
  rw [passes_field read, ofName_path, values_path hasPath]
  refine ⟨note.path, List.mem_singleton_self _, ?_⟩
  rw [isPath] at accepted
  exact TermPattern.isPrefixOf_of_accepts accepted

/-- What is in a directory is found there, if the directory can be asked for and the path can be
seen. -/
theorem isSelected_directory_of_passes (hasPath : note.path ≠ "")
    (noBreak : '\n' ∉ note.path.toList)
    (short : (Text.lower note.path).utf8ByteSize ≤ largestValue)
    (compiles : (pathPattern condition.value).Compiles)
    (passed : (stored note).passes (.field "path" .startsWith condition.value) = true) :
    IsSelected now note (.field "path" .startsWith condition.value) := by
  rw [passes_field read, ofName_path, values_path hasPath] at passed
  rcases passed with ⟨path, member, starts⟩
  rw [List.mem_singleton.mp member] at starts
  have translated := criterion_pathStart now condition.value
  rw [pathStartCriterion_of_compiles compiles] at translated
  rw [← isSelected_iff translated, selects_pathStart noBreak short]
  exact List.isPrefixOf_iff_prefix.mp starts

/-- A note that is selected by a test passes it as it is read back. -/
theorem passes_of_isSelected (filed : IsFiled note) (reach : condition.InReach note)
    {expression : Expr} (test : condition.IsTest expression)
    (isSelected : IsSelected now note expression) :
    (stored note).passes expression = true := by
  cases test with
  | tag field => exact (isSelected_tag read field).mp isSelected
  | data asked noTag field isKey small =>
      exact (isSelected_data read filed reach asked noTag field isKey small).mp isSelected
  | path _ noSlash => exact (isSelected_path read filed.path noSlash).mp isSelected
  | directory => exact passes_of_isSelected_directory read filed.path isSelected

/-- A note that passes the test of an excluding condition is selected by it, if the test can be
asked for. -/
theorem isSelected_of_passes (filed : IsFiled note) (reach : condition.InReach note)
    (excludes : condition.kind = .none) {expression : Expr} (test : condition.IsTest expression)
    {found : Criterion} (translated : criterion now expression = .ok found)
    (passed : (stored note).passes expression = true) : IsSelected now note expression := by
  cases test with
  | tag field => exact (isSelected_tag read field).mpr passed
  | data asked noTag field isKey small =>
      exact (isSelected_data read filed reach asked noTag field isKey small).mpr passed
  | path _ noSlash => exact (isSelected_path read filed.path noSlash).mpr passed
  | directory asked slash =>
      have visible := reach.visible excludes asked slash
      rw [criterion_pathStart] at translated
      have compiles := (pathStartCriterion_eq_ok.mp translated).1
      exact isSelected_directory_of_passes read filed.path visible.1 visible.2 compiles passed

end Engine

end Tests

/-- A note that an index selects by a query of plain conditions passes it as it is read back. -/
theorem passes_of_query [PatternEngine] {conditions : List Condition} {query : Query}
    (made : Condition.query conditions = .ok query)
    (read : ∀ condition ∈ conditions, condition.IsRead)
    (plain : ∀ condition ∈ conditions, condition.IsPlain) {note : Note} (filed : IsFiled note)
    (reach : ∀ condition ∈ conditions, condition.InReach note) {now : Time.Instant} :
    ∀ expression ∈ query.expressions, IsSelected now note expression →
      (stored note).passes expression = true := by
  apply forall_mem_query made fun expression => IsSelected now note expression →
    (stored note).passes expression = true
  · intro condition listed _ expression hasExpression
    have test := isTest_of_expr (read condition listed) (plain condition listed) hasExpression
    exact passes_of_isSelected (read condition listed) filed (reach condition listed) test
  · rintro left right onLeft onRight ⟨found, translated, selects⟩
    rcases bind_eq_ok.mp translated with ⟨first, hasFirst, more⟩
    rcases bind_eq_ok.mp more with ⟨second, hasSecond, same⟩
    rw [← Except.ok.inj same, Criterion.selects_disjunction, Bool.or_eq_true] at selects
    rw [Note.passes, Bool.or_eq_true]
    exact selects.imp (fun selects => onLeft ⟨first, hasFirst, selects⟩)
      fun selects => onRight ⟨second, hasSecond, selects⟩
  · rintro condition listed excludes expression hasExpression ⟨found, translated, selects⟩
    have test := isTest_of_expr (read condition listed) (plain condition listed) hasExpression
    rcases bind_eq_ok.mp translated with ⟨inner, hasInner, same⟩
    rw [← Except.ok.inj same, Criterion.selects_negation, Bool.not_eq_true', ← Bool.not_eq_true,
      isSelected_iff hasInner] at selects
    rw [Note.passes, Bool.not_eq_true', ← Bool.not_eq_true]
    exact fun passed => selects (isSelected_of_passes (read condition listed) filed
      (reach condition listed) excludes test hasInner passed)

end Condition

end Commonplace
