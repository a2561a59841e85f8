import Commonplace.Proofs.Index.PathConditions
import Commonplace.Proofs.Query.ReadingBack
import Commonplace.Proofs.Query.Wildcards
import Commonplace.Proofs.Search.Conditions

namespace Commonplace

/-!
# Searches for a directory

A directory can be asked for in a query text, in a condition and in the options of a search, in the
first two with or without a star behind it.  All of these ask an index for the same: the paths that
begin like the directory, both in lower case.  The slash at the end of a directory is what makes
them agree.  It turns a comparison for equality into one of beginnings, and no sigma in front of it
sees the star.
-/

open Index

/-- Whether a text is a directory that a query text and a condition can name. -/
structure IsDirectory (directory : String) : Prop where
  slash : directory.toList.getLast? = some '/'
  short : directory.utf8ByteSize < Condition.valueLimit
  solid : QueryLanguage.IsSolid ['*', '?', '"'] directory.toList
  start : directory.toList.head? ∉ [some ':', some '<', some '>']

/-- Whether a text can be the value of a field in a query text and of a condition, as it stands and
without a sign. -/
structure IsPlainValue (value : String) : Prop where
  notEmpty : value.toList ≠ []
  short : value.utf8ByteSize ≤ Condition.valueLimit
  solid : QueryLanguage.IsSolid ['"'] value.toList
  start : value.toList.head? ∉ [some ':', some '<', some '>']

/-! ## Directories in lower case -/

namespace IsDirectory

variable {directory : String} (isDirectory : IsDirectory directory)

include isDirectory

theorem exists_inside : ∃ inside, directory.toList = inside ++ ['/'] :=
  List.getLast?_eq_some_iff.mp isDirectory.slash

theorem notEmpty : directory.toList ≠ [] := by
  intro empty
  have slash := isDirectory.slash
  rw [empty] at slash
  cases slash

theorem not_mem {character : Char} (mark : character ∈ ['*', '?', '"']) :
    character ∉ directory.toList :=
  fun member => (isDirectory.solid character member).2 mark

/-- A star behind a directory stays there in lower case, and changes nothing in front of it. -/
theorem lower_append_star : Text.lower (directory ++ "*") = Text.lower directory ++ "*" := by
  rcases isDirectory.exists_inside with ⟨inside, whole⟩
  have starred : (directory ++ "*").toList = inside ++ '/' :: ['*'] := by
    rw [String.toList_append, whole, List.append_assoc]
    rfl
  have star : ∀ before, Text.lowerFrom before ['*'] = ['*'] := fun _ => rfl
  rw [← String.toList_inj, String.toList_append, Text.lower, Text.lower, String.toList_ofList,
    String.toList_ofList, starred, whole, Text.lowerFrom_append_slash,
    Text.lowerFrom_append_slash, star, List.append_assoc]
  rfl

theorem not_mem_lower {character : Char} (mark : character ∈ ['*', '?']) :
    character ∉ (Text.lower directory).toList := by
  have isMark : Text.IsMark character ∧ character ∈ ['*', '?', '"'] := by
    rcases List.mem_cons.mp mark with rfl | other
    · decide
    · rw [List.mem_singleton.mp other]
      decide
  exact fun member => isDirectory.not_mem isMark.2 (Text.mem_of_mem_lower isMark.1 member)

end IsDirectory

/-! ## Patterns of a directory -/

/-- A text without stand-ins, with a star behind it, is the pattern of a beginning. -/
theorem ofWildcard_append_star {text : String} (noStar : '*' ∉ text.toList)
    (noMark : '?' ∉ text.toList) :
    TermPattern.ofWildcard (WildcardKind.openEnd.normalize (text ++ "*")) =
      .startingWith text := by
  have starred : (text ++ "*").toList = text.toList ++ ['*'] := String.toList_append
  have literal : ∀ character ∈ text.toList,
      (if character == '*' then Piece.anyRun
        else if character == '?' then .anyOne else .literal character) = .literal character := by
    intro character member
    rw [if_neg, if_neg]
    · rintro mark
      exact noMark (beq_iff_eq.mp mark ▸ member)
    · rintro star
      exact noStar (beq_iff_eq.mp star ▸ member)
  rw [TermPattern.ofWildcard, WildcardKind.normalize, String.toList_ofList, starred,
    WildcardKind.normalizeChars, WildcardKind.withoutEndStars_append_star noStar, List.map_append,
    List.map_congr_left literal]
  rfl

/-- A text that neither begins with a star nor is empty is open at its end when a star is put
behind it. -/
theorem ofPattern_append_star {text : String} (notEmpty : text.toList ≠ [])
    (noStar : '*' ∉ text.toList) : WildcardKind.ofPattern (text ++ "*") = .openEnd := by
  have first : ((text ++ "*").toList.head? == some '*') = false := by
    rw [String.toList_append, List.head?_append_of_ne_nil _ notEmpty]
    exact beq_eq_false_iff_ne.mpr fun star => noStar (List.mem_of_mem_head? star)
  have last : ((text ++ "*").toList.getLast? == some '*') = true := by
    rw [String.toList_append]
    exact beq_iff_eq.mpr List.getLast?_concat
  rw [WildcardKind.ofPattern, first, last]

/-! ## Criteria -/

namespace IsDirectory

variable [PatternEngine] {directory : String} (isDirectory : IsDirectory directory)
  (now : Time.Instant)

include isDirectory

/-- To be equal to a directory is to begin with it. -/
theorem criterion_equals :
    criterion now (.field "path" .equals directory) = pathStartCriterion directory := by
  rw [Index.criterion_equals now "path" (by rw [ofName_path]; rfl), ofName_path,
    equalityCriterion, Text.getLast?_lower isDirectory.slash, beq_self_eq_true, if_pos rfl,
    pathStartCriterion, pathPattern, Text.lower_lower]
  rfl

theorem criterion_wildcard :
    criterion now (.wildcardOf "path" (directory ++ "*")) = pathStartCriterion directory := by
  have kind : WildcardKind.ofPattern (directory ++ "*") = .openEnd :=
    ofPattern_append_star isDirectory.notEmpty (isDirectory.not_mem (by decide))
  rw [Expr.wildcardOf, kind, criterion, wildcardCriterion, Condition.patternField_path,
    isDirectory.lower_append_star, ofWildcard_append_star (isDirectory.not_mem_lower (by decide))
      (isDirectory.not_mem_lower (by decide))]
  rfl

end IsDirectory

/-! ## Query texts -/

namespace QueryLanguage

/-- The expression for a plain value of the path. -/
def plainPathExpr (value : String) : Expr :=
  if isPattern value then .wildcardOf "path" value else .field "path" .equals value

theorem readsAtom_path {value : String} (plain : IsPlainValue value) :
    ReadsAtom ("path:" ++ value).toList (plainPathExpr value) [] := by
  have start := plain.start
  simp only [List.mem_cons, List.not_mem_nil, or_false, not_or] at start
  have made : fieldExpr "path" .equals value false value.toList = .ok (plainPathExpr value) := by
    unfold fieldExpr plainPathExpr
    rw [if_neg (by decide)]
    cases isPattern value <;> rfl
  have reads : ReadsValue value.toList value false [] := by
    have alone := ReadsValue.plain plain.notEmpty (.alone plain.solid)
    rw [String.ofList_toList, List.append_nil] at alone
    exact alone
  have stands : StandsBefore .equals value.toList := ⟨start.2.2, start.2.1⟩
  have isName : IsSolid ['"', ':'] "path".toList := by decide
  have low : Text.lower (String.ofList "path".toList) = "path" := by decide +kernel
  have atom := ReadsAtom.field isName (by rw [low]; decide) start.1 stands reads
    (by rw [low]; exact made)
  rw [String.toList_append]
  exact atom

/-- A plain value behind the name of the path and a colon is read as the path or as a pattern. -/
theorem parse_path {value : String} (plain : IsPlainValue value) :
    parse ("path:" ++ value) = .ok ⟨[plainPathExpr value], "path:" ++ value⟩ := by
  have begins : StartsPlain ("path:" ++ value).toList := by
    rw [String.toList_append]
    exact startsPlain_of_name (by decide : "path" ∈ fieldNames ++ presenceWords) _
  have spells : Spells ("path:" ++ value).toList (marksOf [[plainPathExpr value]]) :=
    .expr begins.2 (.plain begins.1 (readsAtom_path plain)) .done
  have proper : AreProper [[plainPathExpr value]] :=
    .inr ⟨List.cons_ne_nil _ _, List.forall_mem_singleton.mpr (List.cons_ne_nil _ _)⟩
  exact (ReadsChains.mk spells proper).parse.1

end QueryLanguage

/-! ## Conditions -/

namespace Condition

/-- The query for one flag that has to hold. -/
def queryOfFlag (flag : String) : Except ConditionFault Query := do
  let conditions <- parseAll [flag] [] []
  query conditions

theorem parse_path {value : String} (plain : IsPlainValue value) (kind : ConditionKind) :
    parse kind ("path=" ++ value) = .ok ⟨kind, "path", value⟩ := by
  have split : splitEquation ("path=" ++ value).toList = some ("path".toList, value.toList) := by
    rw [String.toList_append]
    rfl
  have name : String.ofList (Text.trimChars "path".toList) = "path" := by decide +kernel
  have kept : String.ofList (Text.trimChars value.toList) = value :=
    Text.trim_of_isTrimmed (.of_forall fun character member => (plain.solid character member).1)
  have notEmpty : value.isEmpty = false := by
    rw [String.isEmpty_eq_false_iff, ← String.toList_eq_nil_iff.ne]
    exact plain.notEmpty
  unfold parse
  rw [split]
  dsimp only
  rw [name, kept, if_neg (by decide), if_neg (Nat.not_lt.mpr plain.short), notEmpty]
  rfl

theorem queryOfFlag_path {value : String} (plain : IsPlainValue value) :
    queryOfFlag ("path=" ++ value) = .ok (.ofExpressions [pathExpr value]) := by
  have read : parseAll ["path=" ++ value] [] [] = .ok [⟨.all, "path", value⟩] := by
    rw [parseAll, List.mapM_cons, parse_path plain]
    rfl
  exact bind_eq_ok.mpr ⟨_, read, query_of_path value⟩

end Condition

namespace IsDirectory

variable {directory : String} (isDirectory : IsDirectory directory)

include isDirectory

theorem any_isStandIn : directory.toList.any Condition.isStandIn = false := by
  rw [List.any_eq_false]
  intro character member standIn
  have mark : character ∈ ['*', '?', '"'] := by
    rcases Bool.or_eq_true_iff.mp standIn with star | question
    · rw [beq_iff_eq.mp star]
      decide
    · rw [beq_iff_eq.mp question]
      decide
  exact isDirectory.not_mem mark member

/-- A condition on the path takes a directory for the beginning of a path. -/
theorem pathExpr_eq : Condition.pathExpr directory = .field "path" .startsWith directory := by
  rw [Condition.pathExpr, isDirectory.any_isStandIn, isDirectory.slash]
  rfl

/-- A star behind a directory makes no difference to a condition on the path. -/
theorem pathExpr_append_star :
    Condition.pathExpr (directory ++ "*") = .field "path" .startsWith directory := by
  rcases isDirectory.exists_inside with ⟨inside, whole⟩
  have standsIn : (directory ++ "*").toList.any Condition.isStandIn = true := by
    rw [String.toList_append, List.any_append]
    exact Bool.or_true _
  have found : Condition.directoryOf? (directory ++ "*").toList = some directory.toList := by
    have reversed : (directory ++ "*").toList.reverse = '*' :: '/' :: inside.reverse := by
      rw [String.toList_append, whole, List.reverse_append, List.reverse_append]
      rfl
    have back : ('/' :: inside.reverse).reverse = directory.toList := by
      rw [List.reverse_cons, List.reverse_reverse, whole]
    rw [Condition.directoryOf?, reversed]
    change (if ('/' :: inside.reverse).reverse.any Condition.isStandIn then none
      else some ('/' :: inside.reverse).reverse) = _
    rw [back, isDirectory.any_isStandIn]
    rfl
  rw [Condition.pathExpr, standsIn, found]
  change Expr.field "path" .startsWith (String.ofList directory.toList) = _
  rw [String.ofList_toList]

/-! ## Values -/

theorem isPlainValue : IsPlainValue directory where
  notEmpty := isDirectory.notEmpty
  short := isDirectory.short.le
  solid := fun character member => ⟨(isDirectory.solid character member).1, fun quote =>
    (isDirectory.solid character member).2 (List.mem_cons_of_mem _ (List.mem_cons_of_mem _ quote))⟩
  start := isDirectory.start

theorem isPlainValue_append_star : IsPlainValue (directory ++ "*") where
  notEmpty := by
    rw [String.toList_append]
    exact List.append_ne_nil_of_left_ne_nil isDirectory.notEmpty _
  short := by
    have star : "*".utf8ByteSize = 1 := by decide
    rw [String.utf8ByteSize_append, star]
    exact isDirectory.short
  solid := by
    intro character member
    rw [String.toList_append, List.mem_append] at member
    rcases member with inDirectory | star
    · exact isDirectory.isPlainValue.solid character inDirectory
    · rw [List.mem_singleton.mp star]
      decide
  start := by
    rw [String.toList_append, List.head?_append_of_ne_nil _ isDirectory.notEmpty]
    exact isDirectory.start

theorem plainPathExpr_eq :
    QueryLanguage.plainPathExpr directory = .field "path" .equals directory := by
  have noStar : directory.toList.any WildcardKind.isStar = false := by
    rw [List.any_eq_false]
    intro character member star
    exact isDirectory.not_mem (by rw [beq_iff_eq.mp star]; decide) member
  rw [QueryLanguage.plainPathExpr, QueryLanguage.isPattern, noStar]
  rfl

theorem plainPathExpr_append_star :
    QueryLanguage.plainPathExpr (directory ++ "*") = .wildcardOf "path" (directory ++ "*") := by
  have someStar : (directory ++ "*").toList.any WildcardKind.isStar = true := by
    rw [String.toList_append, List.any_append]
    exact Bool.or_true _
  have slash : '/' ∈ (directory ++ "*").toList := by
    rw [String.toList_append]
    exact List.mem_append_left _ (List.mem_of_getLast? isDirectory.slash)
  have notAll : (directory ++ "*").toList.all WildcardKind.isStar = false :=
    List.all_eq_false.mpr ⟨'/', slash, by decide⟩
  rw [QueryLanguage.plainPathExpr, QueryLanguage.isPattern, someStar, notAll]
  rfl

end IsDirectory

/-! ## Searches -/

/-- The options that ask for the paths that begin with a text. -/
def SearchOptions.ofPathStart (start : String) : SearchOptions :=
  { SearchOptions.empty with pathStart := some start }

namespace Index

section Engine

variable [PatternEngine]

/-- Options with a query of one expression have its criterion, or fail as it does. -/
theorem optionsCriterion_expression (now : Time.Instant) (expression : Expr) (raw : String) :
    optionsCriterion now (.ofQuery ⟨[expression], raw⟩) = criterion now expression := by
  cases translated : criterion now expression with
  | ok found =>
      apply optionsCriterion_query
      exact bind_eq_ok.mpr ⟨[found], bind_eq_ok.mpr ⟨found, translated, rfl⟩, rfl⟩
  | error fault =>
      have failed : queryCriterion now ⟨[expression], raw⟩ = .error fault := by
        rw [queryCriterion, criteria, translated]
        rfl
      unfold optionsCriterion
      change (List.mapM (queryCriterion now) [⟨[expression], raw⟩] >>= _) = _
      rw [List.mapM_cons, failed]
      rfl

theorem optionsCriterion_pathStart (now : Time.Instant) {start : String}
    (notEmpty : start.toList ≠ []) :
    optionsCriterion now (.ofPathStart start) = pathStartCriterion start := by
  have asked : start.isEmpty = false := by
    rw [String.isEmpty_eq_false_iff, ← String.toList_eq_nil_iff.ne]
    exact notEmpty
  have starts : ((some start).toList.filter fun start => !start.isEmpty) = [start] := by
    rw [Option.toList_some, List.filter_cons_of_pos (by rw [asked]; rfl), List.filter_nil]
  unfold optionsCriterion
  change (List.mapM pathStartCriterion ((some start).toList.filter fun start => !start.isEmpty)
    >>= _) = _
  rw [starts, List.mapM_cons]
  cases pathStartCriterion start <;> rfl

/-- All searches for a directory ask for the same, and so they find the same notes of every index,
in the same order, or fail alike.  They have a criterion if the pattern of the directory compiles.
Of the notes whose paths can be seen, it selects the ones whose paths begin like the directory, both
in lower case. -/
theorem directory_searches_agree (now : Time.Instant) {directory : String}
    (isDirectory : IsDirectory directory) :
    ∃ written starred required requiredStarred found,
      QueryLanguage.parse ("path:" ++ directory) = .ok written ∧
      QueryLanguage.parse ("path:" ++ (directory ++ "*")) = .ok starred ∧
      Condition.queryOfFlag ("path=" ++ directory) = .ok required ∧
      Condition.queryOfFlag ("path=" ++ (directory ++ "*")) = .ok requiredStarred ∧
      (∀ options ∈ [.ofQuery written, .ofQuery starred, .ofQuery required,
          .ofQuery requiredStarred, .ofPathStart directory],
        ((pathPattern directory).Compiles → optionsCriterion now options = .ok found) ∧
          ∀ contents field direction limit offset,
            find contents now (options.arranged field direction limit offset) =
              find contents now
                ((SearchOptions.ofPathStart directory).arranged field direction limit offset)) ∧
      ∀ (contents : Contents) note, note ∈ contents.notes → '\n' ∉ note.path.toList →
        (Text.lower note.path).utf8ByteSize ≤ largestValue →
          (note ∈ selected contents.notes found ↔
            (Text.lower directory).toList <+: (Text.lower note.path).toList) := by
  have plain := isDirectory.isPlainValue
  have plainStarred := isDirectory.isPlainValue_append_star
  refine ⟨_, _, _, _, startCriterion directory, QueryLanguage.parse_path plain,
    QueryLanguage.parse_path plainStarred, Condition.queryOfFlag_path plain,
    Condition.queryOfFlag_path plainStarred, ?_, ?_⟩
  · rw [isDirectory.plainPathExpr_eq, isDirectory.plainPathExpr_append_star,
      isDirectory.pathExpr_eq, isDirectory.pathExpr_append_star]
    have begins := criterion_pathStart now directory
    have started := optionsCriterion_pathStart now isDirectory.notEmpty
    have same : ∀ {options}, optionsCriterion now options = pathStartCriterion directory →
        ((pathPattern directory).Compiles →
          optionsCriterion now options = .ok (startCriterion directory)) ∧
          ∀ contents field direction limit offset,
            find contents now (options.arranged field direction limit offset) =
              find contents now
                ((SearchOptions.ofPathStart directory).arranged field direction limit offset) := by
      intro options asks
      refine ⟨fun compiles => asks.trans (pathStartCriterion_of_compiles compiles), ?_⟩
      intro contents field direction limit offset
      have asked : optionsCriterion now (options.arranged field direction limit offset) =
          optionsCriterion now
            ((SearchOptions.ofPathStart directory).arranged field direction limit offset) :=
        asks.trans started.symm
      rw [find, find, asked]
      rfl
    intro options member
    simp only [List.mem_cons, List.not_mem_nil, or_false] at member
    rcases member with rfl | rfl | rfl | rfl | rfl
    · exact same ((optionsCriterion_expression now _ _).trans (isDirectory.criterion_equals now))
    · exact same ((optionsCriterion_expression now _ _).trans
        (isDirectory.criterion_wildcard now))
    · exact same ((optionsCriterion_expression now _ _).trans begins)
    · exact same ((optionsCriterion_expression now _ _).trans begins)
    · exact same started
  · intro contents note listed noBreak short
    rw [mem_selected, and_iff_right listed]
    exact selects_pathStart noBreak short

end Engine

/-- A directory with brackets, a plus sign and a sigma at the end of a word. -/
def sigmaDirectory : String :=
  "Pro(ject)+/ΑΣ/"

/-- A note in the directory, and one beside it. -/
def sigmaNotes : Contents :=
  ⟨[Note.ofPath "pro(JECT)+/Ας/Plan.md", Note.ofPath "project/Ας/Plan.md"], []⟩

open scoped PatternEngine

/-- The note in the directory is found by the directory with a star, and the other one is not. -/
theorem sigma_directory_is_searched :
    IsDirectory sigmaDirectory ∧ ∃ starred found,
      QueryLanguage.parse ("path:" ++ (sigmaDirectory ++ "*")) = .ok starred ∧
      optionsCriterion ⟨0, 0⟩ (.ofQuery starred) = .ok found ∧
      Note.ofPath "pro(JECT)+/Ας/Plan.md" ∈ selected sigmaNotes.notes found ∧
      Note.ofPath "project/Ας/Plan.md" ∉ selected sigmaNotes.notes found := by
  have isDirectory : IsDirectory sigmaDirectory :=
    ⟨by decide, by decide, by decide, by decide⟩
  rcases directory_searches_agree ⟨0, 0⟩ isDirectory with
    ⟨_, starred, _, _, found, _, parsed, _, _, same, finds⟩
  have translated := (same (.ofQuery starred) (by simp)).1 rfl
  refine ⟨isDirectory, starred, found, parsed, translated, ?_, ?_⟩
  · rw [finds sigmaNotes _ List.mem_cons_self (by decide) (by decide +kernel)]
    decide +kernel
  · rw [finds sigmaNotes _ (List.mem_cons_of_mem _ List.mem_cons_self) (by decide)
      (by decide +kernel)]
    decide +kernel

theorem noBreak_longPath (count : Nat) : '\n' ∉ (Retriever.longPath count).path.toList := by
  intro member
  change '\n' ∈ ("projects/" ++ String.ofList (List.replicate count 'a')).toList at member
  rw [String.toList_append, List.mem_append] at member
  rcases member with inStart | inRun
  · exact absurd inStart (by decide)
  · rw [String.toList_ofList] at inRun
    exact absurd (List.eq_of_mem_replicate inRun) (by decide)

/-- A path that is too long for the index is not found, although it begins like the directory. -/
theorem long_path_is_in_no_directory :
    IsDirectory "projects/" ∧ '\n' ∉ (Retriever.longPath largestValue).path.toList ∧
      (Text.lower "projects/").toList <+:
        (Text.lower (Retriever.longPath largestValue).path).toList ∧
      ∃ written found, QueryLanguage.parse "path:projects/" = .ok written ∧
        optionsCriterion ⟨0, 0⟩ (.ofQuery written) = .ok found ∧
        selected [Retriever.longPath largestValue] found = [] := by
  have isDirectory : IsDirectory "projects/" := ⟨by decide, by decide, by decide, by decide⟩
  have low : Text.lower "projects/" = "projects/" := by decide +kernel
  have parsed := QueryLanguage.parse_path isDirectory.isPlainValue
  rw [isDirectory.plainPathExpr_eq] at parsed
  have asks := (optionsCriterion_expression ⟨0, 0⟩ _ "path:projects/").trans
    ((isDirectory.criterion_equals ⟨0, 0⟩).trans (pathStartCriterion_of_compiles rfl))
  refine ⟨isDirectory, ?_, ?_, _, _, parsed, asks, ?_⟩
  · exact noBreak_longPath largestValue
  · rw [Retriever.lower_longPath, low, String.toList_append]
    exact List.prefix_append _ _
  · rw [selected, List.filter_eq_nil_iff]
    intro note member
    rw [List.mem_singleton.mp member, Retriever.longPath_isHidden le_rfl]
    exact Bool.false_ne_true

end Index

end Commonplace
