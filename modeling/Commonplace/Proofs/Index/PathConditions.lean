import Commonplace.Proofs.Glob.TwoStars
import Commonplace.Proofs.Index.ConditionGroups
import Commonplace.Proofs.Text.Recasing

namespace Commonplace

/-!
# Conditions on the path

A condition on the path is judged in two ways: a note matches a path pattern against the bytes of
its path, and an index matches a pattern for terms against the path in lower case.  For ASCII paths
the two agree, on directories, on single paths and on all patterns of stars and question marks in
which two stars do not stand for directories.
-/

open Index

namespace Index
namespace TermPattern

/-- The pattern of a text with stars, brought into shape in lower case, accepts the lower-cased
ASCII texts that the characters of the text match, brought into the same shape. -/
theorem accepts_normalize_lower_iff (kind : WildcardKind) {pattern text : String}
    (letters : Text.IsAscii pattern.toList ∨
      ∃ character ∈ pattern.toList, ¬character.toNat < 128 ∧ character ≠ Text.kelvinSign)
    (asciiText : Text.IsAscii text.toList) (noBreak : '\n' ∉ text.toList) :
    (ofWildcard (kind.normalize (Text.lower pattern))).accepts (Text.lower text) = true ↔
      Text.Matched Glob.starRests (kind.normalizeChars pattern.toList) text.toList := by
  have lowText := Text.toList_lower_of_ascii asciiText
  have free := isFree_of_not_mem (Text.not_mem_lower noBreak)
  rw [lowText] at free
  rw [WildcardKind.normalize, ← String.ofList_toList (s := Text.lower text), lowText]
  rcases letters with ascii | ⟨character, member, notAscii, notKelvin⟩
  · rw [Text.toList_lower_of_ascii ascii, Glob.normalizeChars_map,
      accepts_ofWildcard_iff_matched _ free]
  · -- Neither pattern matches an ASCII text, since both keep a character beyond ASCII.
    have notStar : ∀ {character : Char}, ¬character.toNat < 128 → character ≠ '*' :=
      fun beyond star => beyond (by rw [star]; decide)
    rcases Text.exists_mem_lower member notAscii notKelvin with ⟨lowered, inLower, beyond⟩
    rw [← Text.map_toLower_lower pattern, Glob.normalizeChars_map,
      accepts_ofWildcard_iff_matched _ free]
    exact iff_of_false
      (Glob.not_matched_of_not_ascii (Glob.mem_normalizeChars inLower (notStar beyond) kind) beyond
        asciiText)
      (Glob.not_matched_of_not_ascii (Glob.mem_normalizeChars member (notStar notAscii) kind)
        notAscii asciiText)

end TermPattern
end Index

/-! ## Notes and patterns -/

/-- Whether the path of a note is an ASCII text without a line feed that is short enough for a
term. -/
structure HasPlainPath (note : Note) : Prop where
  notEmpty : note.path ≠ ""
  ascii : Text.IsAscii note.path.toList
  noBreak : '\n' ∉ note.path.toList
  short : note.path.utf8ByteSize ≤ largestValue

namespace Condition

/-- Whether a value of a condition on the path is a pattern, neither a path nor a directory. -/
def IsPattern (value : String) : Prop :=
  value.toList.any isStandIn = true ∧ directoryOf? value.toList = none

instance (value : String) : Decidable (IsPattern value) :=
  inferInstanceAs (Decidable (_ ∧ _))

/-- Whether a pattern asks a note and an index for the same: in the shape of its kind, it has no
groups and no two stars that stand for directories up to a slash, and it is ASCII or has a character
beyond ASCII that stays so in lower case. -/
structure IsUniform (value : String) : Prop where
  level : Glob.IsLevel ((WildcardKind.ofPattern value).normalizeChars value.toList)
  letters : Text.IsAscii value.toList ∨
    ∃ character ∈ value.toList, ¬character.toNat < 128 ∧ character ≠ Text.kelvinSign

instance (value : String) : Decidable (IsUniform value) :=
  have : Decidable (∃ character ∈ value.toList,
      ¬character.toNat < 128 ∧ character ≠ Text.kelvinSign) := List.decidableBEx _ value.toList
  decidable_of_iff (_ ∧ _) ⟨fun parts => ⟨parts.1, parts.2⟩, fun uniform =>
    ⟨uniform.level, uniform.letters⟩⟩

/-- A directory with a star is split into both. -/
theorem directoryOf?_eq_some {value directory : List Char}
    (found : directoryOf? value = some directory) :
    value = directory ++ ['*'] ∧ directory.getLast? = some '/' := by
  unfold directoryOf? at found
  split at found
  · rename_i rest reversed
    dsimp only at found
    split at found
    · cases found
    · cases found
      have whole := congrArg List.reverse reversed
      rw [List.reverse_reverse] at whole
      simp [whole]
  · cases found

/-- Without the star, the value that was read could have been read too. -/
theorem IsRead.directory {condition : Condition} (read : condition.IsRead) {directory : List Char}
    (whole : condition.value.toList = directory ++ ['*'])
    (last : directory.getLast? = some '/') :
    ({ condition with value := String.ofList directory } : Condition).IsRead where
  known := read.known
  trimmed := by
    have trimmed : Text.IsTrimmed condition.value.toList := by
      rw [← read.trimmed, Text.trim, String.toList_ofList]
      exact Text.isTrimmed_trimChars _
    apply Text.trim_of_isTrimmed
    rw [String.toList_ofList]
    constructor
    · intro head first
      apply trimmed.start head
      rw [whole, List.head?_append, Option.mem_def.mp first]
      rfl
    · intro character final
      rw [last] at final
      rw [← Option.some.inj final]
      decide
  short := by
    have short := read.short
    rw [← String.utf8Len_toList, whole, String.utf8Len_append] at short
    rw [String.utf8ByteSize_ofList]
    omega

theorem patternField_path : Note.patternField "path" = .path := by
  decide +kernel

/-- A note with an ASCII path matches a level pattern just when the characters of the pattern match
the path. -/
theorem exists_answer_of_isLevel (now : Time.Instant) (note : Note) {value : String}
    (level : Glob.IsLevel ((WildcardKind.ofPattern value).normalizeChars value.toList))
    (notEmpty : note.path ≠ "") (ascii : Text.IsAscii note.path.toList) :
    ∃ answer, note.satisfies now (.wildcardOf "path" value) = .ok answer ∧
      (answer = true ↔ Text.Matched Glob.starRests
        ((WildcardKind.ofPattern value).normalizeChars value.toList) note.path.toList) := by
  rcases Glob.exists_parts_of_isLevel level with ⟨parts, isRead, matchesAlike⟩
  have values : note.values .path = [note.path] := textValues_of_ne notEmpty
  refine ⟨Glob.matchesText parts note.path, ?_, matchesAlike note.path ascii⟩
  rw [Expr.wildcardOf, Note.satisfies, Note.satisfiesWildcard, patternField_path, values,
    WildcardKind.normalize, isRead]
  change Except.ok ([note.path].any (Glob.matchesText parts)) = _
  rw [List.any_cons, List.any_nil, Bool.or_false]

theorem short_lower_path {note : Note} (plain : HasPlainPath note) :
    (Text.lower note.path).utf8ByteSize ≤ largestValue := by
  rw [← String.utf8Len_toList, Text.toList_lower_of_ascii plain.ascii, Text.utf8Len_map_toLower,
    String.utf8Len_toList]
  exact plain.short

section Engine

variable [PatternEngine]

/-- Whether a note answers an expression, and answers it as an index does. -/
def Agrees (now : Time.Instant) (note : Note) (expression : Expr) : Prop :=
  ∃ found, criterion now expression = .ok found ∧
    note.satisfies now expression = .ok (found.selects note)

section Agreement

variable {now : Time.Instant} {note : Note}

theorem agrees_or {left right : Expr} (onLeft : Agrees now note left)
    (onRight : Agrees now note right) : Agrees now note (.or left right) := by
  rcases onLeft with ⟨first, hasFirst, answersFirst⟩
  rcases onRight with ⟨second, hasSecond, answersSecond⟩
  refine ⟨_, bind_eq_ok.mpr ⟨first, hasFirst, bind_eq_ok.mpr ⟨second, hasSecond, rfl⟩⟩, ?_⟩
  rw [Note.satisfies, answersFirst, answersSecond, Criterion.selects_disjunction]
  cases first.selects note <;> rfl

theorem agrees_not {inner : Expr} (inside : Agrees now note inner) :
    Agrees now note (.not inner) := by
  rcases inside with ⟨found, translated, answers⟩
  refine ⟨_, criterion_not translated, ?_⟩
  rw [Note.satisfies, answers, Criterion.selects_negation]
  rfl

theorem satisfiesAll_of_agrees {expressions : List Expr}
    (agrees : ∀ expression ∈ expressions, Agrees now note expression) {required : List Criterion}
    (translated : criteria now expressions = .ok required) :
    note.satisfiesAll now expressions = .ok (Criterion.selectsAll note required) := by
  induction expressions generalizing required with
  | nil =>
      cases translated
      rfl
  | cons expression rest inductionHypothesis =>
      have parts := List.forall_mem_cons.mp agrees
      rcases parts.1 with ⟨found, hasFound, answers⟩
      rcases bind_eq_ok.mp translated with ⟨first, hasFirst, more⟩
      rcases bind_eq_ok.mp more with ⟨others, hasOthers, same⟩
      rw [hasFound] at hasFirst
      rw [← Except.ok.inj same, Note.satisfiesAll, answers, ← Except.ok.inj hasFirst,
        inductionHypothesis parts.2 hasOthers, Criterion.selectsAll]
      cases found.selects note <;> rfl

/-! ## Paths and directories -/

/-- A comparison with the path is answered as by an index when it is passed by the notes that are
selected. -/
theorem agrees_of_isSelected_iff {comparison : Comparison} {value : String}
    (noOrder : comparison.isOrdering = false) {found : Criterion}
    (translated : criterion now (.field "path" comparison value) = .ok found)
    (same : IsSelected now note (.field "path" comparison value) ↔
      (stored note).passes (.field "path" comparison value) = true) :
    Agrees now note (.field "path" comparison value) := by
  have noDate : (Field.ofName "path").isDate = false := by rw [ofName_path]; rfl
  have samePath : (stored note).passes (.field "path" comparison value) =
      note.passes (.field "path" comparison value) := by
    rw [Note.passes, Note.passes, ofName_path]
    rfl
  refine ⟨found, translated, ?_⟩
  rw [Note.isTimeless_field noDate noOrder note now, ← samePath]
  apply congrArg Except.ok
  rw [Bool.eq_iff_iff, isSelected_iff translated, same]

section Plain

variable (plain : HasPlainPath note) {condition : Condition} (read : condition.IsRead)

include plain read

theorem agrees_path (noSlash : condition.value.toList.getLast? ≠ some '/') :
    Agrees now note (.field "path" .equals condition.value) := by
  have equals : criterion now (.field "path" .equals condition.value) =
      .ok (.term .pathLower (Text.lower condition.value)) := by
    rw [criterion_equals now "path" (by rw [ofName_path]; rfl), ofName_path, equalityCriterion,
      if_neg (mt beq_iff_eq.mp fun slash => noSlash (Text.getLast?_of_lower slash))]
  exact agrees_of_isSelected_iff rfl equals (isSelected_path read plain.notEmpty noSlash)

theorem agrees_directory
    (compile : PatternsCompile (.field "path" .startsWith condition.value)) :
    Agrees now note (.field "path" .startsWith condition.value) := by
  have compiles : (pathPattern condition.value).Compiles := by
    apply compile.own
    rw [ownPattern?, ofName_path]
    rfl
  exact agrees_of_isSelected_iff rfl
    ((criterion_pathStart now _).trans (pathStartCriterion_of_compiles compiles))
    ⟨passes_of_isSelected_directory read plain.notEmpty, isSelected_directory_of_passes read
      plain.notEmpty plain.noBreak (short_lower_path plain) compiles⟩

/-- A directory with a star asks for what the directory alone does. -/
theorem agrees_directoryOf {directory : List Char}
    (found : directoryOf? condition.value.toList = some directory)
    (compile : PatternsCompile (.field "path" .startsWith (String.ofList directory))) :
    Agrees now note (.field "path" .startsWith (String.ofList directory)) := by
  rcases directoryOf?_eq_some found with ⟨whole, last⟩
  have inDirectory : Agrees now note (.field "path" .startsWith
      ({ condition with value := String.ofList directory } : Condition).value) :=
    agrees_directory plain (read.directory whole last) compile
  exact inDirectory

omit read in
theorem agrees_wildcard {value : String} (uniform : IsUniform value)
    (compile : PatternsCompile (.wildcardOf "path" value)) :
    Agrees now note (.wildcardOf "path" value) := by
  have compiles : (TermPattern.ofWildcard
      ((WildcardKind.ofPattern value).normalize (Text.lower value))).Compiles := by
    apply compile.own
    rw [Expr.wildcardOf, ownPattern?, patternField_path]
    rfl
  have terms := terms_pathLower (short_lower_path plain)
  have accepts := TermPattern.accepts_normalize_lower_iff (WildcardKind.ofPattern value)
    uniform.letters plain.ascii plain.noBreak
  rcases exists_answer_of_isLevel now note uniform.level plain.notEmpty plain.ascii with
    ⟨answer, satisfies, answers⟩
  refine ⟨.pattern (.values .pathLower)
    (.ofWildcard ((WildcardKind.ofPattern value).normalize (Text.lower value))), ?_, ?_⟩
  · rw [Expr.wildcardOf, criterion, wildcardCriterion, patternField_path]
    exact compiled_of_compiles compiles _
  · rw [satisfies, Criterion.selects, PatternSlot.terms, terms, List.any_cons, List.any_nil,
      Bool.or_false]
    exact congrArg Except.ok (Bool.eq_iff_iff.mpr (answers.trans accepts.symm))

/-- The expression of a condition on the path is answered as by an index, if a pattern in it is
uniform and compiles. -/
theorem agrees_pathExpr (uniform : IsPattern condition.value → IsUniform condition.value)
    (compile : PatternsCompile (pathExpr condition.value)) :
    Agrees now note (pathExpr condition.value) := by
  unfold pathExpr at compile ⊢
  dsimp only at compile ⊢
  by_cases marked : condition.value.toList.any isStandIn = true
  · rw [if_neg (by simp [marked])] at compile ⊢
    cases found : directoryOf? condition.value.toList with
    | some directory =>
        rw [found] at compile
        exact agrees_directoryOf plain read found compile
    | none =>
        rw [found] at compile
        exact agrees_wildcard plain (uniform ⟨marked, found⟩) compile
  · rw [if_pos (by simpa using marked)] at compile ⊢
    by_cases slash : condition.value.toList.getLast? = some '/'
    · rw [if_pos (beq_iff_eq.mpr slash)] at compile ⊢
      exact agrees_directory plain read compile
    · rw [if_neg (by simpa using slash)]
      exact agrees_path plain read slash

end Plain

end Agreement

end Engine

/-! ## Queries -/

theorem expr_of_path {condition : Condition} (onPath : condition.field = "path") :
    condition.expr = .ok (pathExpr condition.value) := by
  rw [expr, onPath]
  rfl

theorem query_of_path (value : String) :
    Condition.query [⟨.all, "path", value⟩] = .ok (.ofExpressions [pathExpr value]) := by
  rw [query, List.mapM_cons, expr_of_path rfl]
  rfl

/-- Conditions on the path mean the same to notes and to an index.  Where all conditions are on the
path, and the patterns among them are uniform and compile, they make a query that every note with a
plain path answers, and it answers yes just when an index that holds it selects it. -/
theorem path_conditions_agree [PatternEngine] (now : Time.Instant) {all any none : List String}
    {conditions : List Condition} (parsed : parseAll all any none = .ok conditions)
    (onPath : ∀ condition ∈ conditions, condition.field = "path" ∧
      (IsPattern condition.value → IsUniform condition.value))
    (compile : ∀ condition ∈ conditions, condition.Compiles) :
    ∃ query found, Condition.query conditions = .ok query ∧ queryCriterion now query = .ok found ∧
      ∀ note, HasPlainPath note → ∃ answer, note.satisfiesQuery now query = .ok answer ∧
        ∀ contents : Contents, note ∈ contents.notes →
          (answer = true ↔ note ∈ selected contents.notes found) := by
  have read := isRead_of_parseAll parsed
  rcases exists_query_iff.mpr fun condition listed =>
    ⟨_, expr_of_path (onPath condition listed).1⟩ with ⟨query, made⟩
  rcases exists_criteria_of_conditions made read compile now with ⟨required, translated⟩
  refine ⟨query, _, made, bind_eq_ok.mpr ⟨required, translated, rfl⟩, fun note plain => ?_⟩
  have agrees : ∀ expression ∈ query.expressions, Agrees now note expression := by
    have each : ∀ condition ∈ conditions, ∀ expression, condition.expr = .ok expression →
        Agrees now note expression := by
      intro condition listed expression hasExpression
      have parts := onPath condition listed
      rw [expr_of_path parts.1] at hasExpression
      rw [← Except.ok.inj hasExpression]
      exact agrees_pathExpr plain (read condition listed) parts.2
        (compile condition listed _ (expr_of_path parts.1))
    apply forall_mem_query made (Agrees now note)
    · exact fun condition listed _ => each condition listed
    · exact fun left right onLeft onRight => agrees_or onLeft onRight
    · exact fun condition listed _ expression hasExpression =>
        agrees_not (each condition listed expression hasExpression)
  refine ⟨_, satisfiesAll_of_agrees agrees translated, fun contents listed => ?_⟩
  rw [mem_selected, and_iff_right listed, Criterion.selects_conjunction]

/-- A project of some year or about a language is asked for, but no draft and not the old one. -/
def projectPaths : List Condition :=
  [⟨.all, "path", "projects/*"⟩, ⟨.any, "path", "projects/20??/**x*.md"⟩, ⟨.any, "path", "*RUST*"⟩,
    ⟨.none, "path", "projects/drafts/"⟩, ⟨.none, "path", "projects/[old].md"⟩]

open scoped PatternEngine

/-- The project has a plain path, and both the note and the index say that it is asked for. -/
theorem project_is_asked_for :
    HasPlainPath project ∧ ∃ query found, Condition.query projectPaths = .ok query ∧
      queryCriterion ⟨0, 0⟩ query = .ok found ∧ project.satisfiesQuery ⟨0, 0⟩ query = .ok true ∧
      project ∈ selected projects.notes found := by
  have plain : HasPlainPath project := ⟨by decide, by decide, by decide, by decide⟩
  have parsed : parseAll ["path=projects/*"] ["path=projects/20??/**x*.md", "path = *RUST*"]
      ["path=projects/drafts/", "path=projects/[old].md"] = .ok projectPaths := by decide +kernel
  have onPath : ∀ condition ∈ projectPaths, condition.field = "path" ∧
      (IsPattern condition.value → IsUniform condition.value) := by
    decide +kernel
  have compile : ∀ condition ∈ projectPaths, condition.Compiles :=
    fun condition _ => compiles_permissive condition
  have known : ∃ query found, Condition.query projectPaths = .ok query ∧
      queryCriterion ⟨0, 0⟩ query = .ok found ∧ found.selects project = true :=
    ⟨_, _, rfl, rfl, by decide +kernel⟩
  rcases known with ⟨query, found, made, translated, selects⟩
  have isSelected : project ∈ selected projects.notes found :=
    mem_selected.mpr ⟨List.mem_cons_self, selects⟩
  rcases path_conditions_agree ⟨0, 0⟩ parsed onPath compile with
    ⟨other, otherFound, otherMade, otherTranslated, agree⟩
  rw [made] at otherMade
  cases otherMade
  rw [translated] at otherTranslated
  cases otherTranslated
  rcases agree project plain with ⟨answer, answers, same⟩
  refine ⟨plain, query, found, made, translated, ?_, isSelected⟩
  rw [answers, (same projects List.mem_cons_self).mpr isSelected]

/-- Whether a condition on the path is answered by a note otherwise than by an index, or not at all,
although the path is an ASCII text without a line feed. -/
def IsUneven (value path : String) : Prop :=
  (path ≠ "" ∧ Text.IsAscii path.toList ∧ '\n' ∉ path.toList) ∧
    ∃ conditions query found, parseAll ["path=" ++ value] [] [] = .ok conditions ∧
      Condition.query conditions = .ok query ∧ queryCriterion ⟨0, 0⟩ query = .ok found ∧
      (Note.ofPath path).satisfiesQuery ⟨0, 0⟩ query ≠ .ok (found.selects (Note.ofPath path))

theorem isUneven_of {value path : String}
    (plain : path ≠ "" ∧ Text.IsAscii path.toList ∧ '\n' ∉ path.toList)
    (parsed : parseAll ["path=" ++ value] [] [] = .ok [⟨.all, "path", value⟩]) {found : Criterion}
    (translated : queryCriterion ⟨0, 0⟩ (.ofExpressions [pathExpr value]) = .ok found)
    (differs : (Note.ofPath path).satisfiesQuery ⟨0, 0⟩ (.ofExpressions [pathExpr value]) ≠
      .ok (found.selects (Note.ofPath path))) : IsUneven value path :=
  ⟨plain, _, _, found, parsed, query_of_path value, translated, differs⟩

theorem toList_longTag : longTag.toList = 'a' :: List.replicate largestValue 'a' := by
  rw [longTag, String.toList_ofList, List.replicate_succ]

theorem longTag_isHidden (shape : TermPattern) :
    (Criterion.pattern (.values .pathLower) shape).selects (Note.ofPath longTag) = false := by
  apply selects_pathLower_of_long
  change largestValue < (Text.lower longTag).utf8ByteSize
  rw [lower_longTag, longTag, utf8ByteSize_replicate]
  exact Nat.lt_succ_self _

theorem longTag_isUneven : IsUneven "a*" longTag := by
  have inTag : ∀ character ∈ longTag.toList, character = 'a' := by
    intro character member
    rw [longTag, String.toList_ofList] at member
    exact List.eq_of_mem_replicate member
  have ascii : Text.IsAscii longTag.toList := by
    intro character member
    rw [inTag character member]
    decide
  have notEmpty : longTag ≠ "" := by
    rw [← String.toList_inj.ne, toList_longTag]
    exact List.cons_ne_nil _ _
  have noBreak : '\n' ∉ longTag.toList := fun member =>
    absurd (inTag '\n' member) (by decide)
  have level : Glob.IsLevel ((WildcardKind.ofPattern "a*").normalizeChars "a*".toList) := by
    decide +kernel
  have shape : (WildcardKind.ofPattern "a*").normalizeChars "a*".toList = ['a', '*'] := by
    decide +kernel
  rcases exists_answer_of_isLevel ⟨0, 0⟩ (Note.ofPath longTag) level notEmpty ascii with
    ⟨answer, satisfies, answers⟩
  have matched : Text.Matched Glob.starRests ['a', '*'] longTag.toList := by
    rw [toList_longTag]
    exact ⟨_, List.mem_singleton_self _, [], (Text.mem_ends _ _).mpr List.nil_suffix, rfl⟩
  have answered : answer = true := by
    rw [shape] at answers
    exact answers.mpr matched
  have asked : pathExpr "a*" = .wildcardOf "path" "a*" := rfl
  have translated : queryCriterion ⟨0, 0⟩ (.ofExpressions [pathExpr "a*"]) =
      .ok (.pattern (.values .pathLower)
        (.ofWildcard ((WildcardKind.ofPattern "a*").normalize (Text.lower "a*")))) := rfl
  apply isUneven_of ⟨notEmpty, ascii, noBreak⟩ (by decide +kernel) translated
  rw [asked, Note.satisfiesQuery, Query.ofExpressions, Note.satisfiesAll, satisfies, answered,
    longTag_isHidden]
  intro same
  cases Except.ok.inj same

/-- A note matches a path that is too long for the index.  It takes brackets, braces, backslashes
and two stars for more than they are to the index, and it does not take the Kelvin sign for a
letter. -/
theorem path_conditions_are_uneven :
    IsUneven "a*" longTag ∧ IsUneven "[*" "[x" ∧ IsUneven "[a]*" "[a]b.md" ∧
      IsUneven "\x7ba,b\x7d*" "a.md" ∧ IsUneven "a\\b*" "ab.md" ∧
      IsUneven "a/**/b*" "a/b.md" ∧ IsUneven "**/a*b*" "axb.md" ∧ IsUneven "\u212a*" "k.md" := by
  refine ⟨longTag_isUneven, ?_, ?_, ?_, ?_, ?_, ?_, ?_⟩
  all_goals exact isUneven_of (by decide) (by decide +kernel) rfl (by decide +kernel)

end Condition
end Commonplace
