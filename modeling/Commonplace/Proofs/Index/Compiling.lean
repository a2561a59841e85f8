import Commonplace.Index.Meaning

namespace Commonplace
namespace Index

/-!
# The patterns of a query

The patterns that an expression hands to the engine are those of its parts.  They are written down
without regard to what else can go wrong, so a query whose patterns compile may still mean nothing.
-/

/-- What a pattern in a field is for the engine.  A metadata term begins with its key, and dates
have no terms. -/
def fieldPattern? (field : Field) (shape : TermPattern) : Option TermPattern :=
  match field with
  | .created | .modified => none
  | .metadata key => some (.ofText (key ++ "=") ++ shape)
  | _ => some shape

/-- The pattern of a comparison of a field.  Equality asks for one in a directory only. -/
def comparisonPattern? (field : Field) (comparison : Comparison) (value : String) :
    Option TermPattern :=
  match comparison with
  | .equals =>
      if field = .path ∧ (Text.lower value).toList.getLast? = some '/' then
        some (pathPattern (Text.lower value))
      else none
  | .startsWith => fieldPattern? field (.startingWith (Text.lower value))
  | .endsWith => fieldPattern? field (.endingWith (Text.lower value))
  | .greater | .atLeast | .less | .atMost => none

/-- The pattern that an expression hands to the engine itself. -/
def ownPattern? : Expr -> Option TermPattern
  | .field name comparison value => comparisonPattern? (Field.ofName name) comparison value
  | .wildcard name pattern kind =>
      fieldPattern? (Note.patternField name) (.ofWildcard (kind.normalize (Text.lower pattern)))
  | _ => none

/-- The parts of an expression, among them the expression itself. -/
inductive IsPart : Expr -> Expr -> Prop where
  | whole (expression : Expr) : IsPart expression expression
  | inside {part inner : Expr} (isPart : IsPart part inner) : IsPart part (.not inner)
  | left {part left : Expr} (isPart : IsPart part left) (right : Expr) :
      IsPart part (.or left right)
  | right {part right : Expr} (left : Expr) (isPart : IsPart part right) :
      IsPart part (.or left right)
  | among {part expression : Expr} {expressions : List Expr} (member : expression ∈ expressions)
      (isPart : IsPart part expression) : IsPart part (.and expressions)

variable [PatternEngine]

/-- Whether the engine takes all patterns of an expression. -/
def PatternsCompile (expression : Expr) : Prop :=
  ∀ part, IsPart part expression → ∀ shape ∈ ownPattern? part, shape.Compiles

namespace PatternsCompile

variable {expression inner left right : Expr} {expressions : List Expr}

theorem own (compile : PatternsCompile expression) :
    ∀ shape ∈ ownPattern? expression, shape.Compiles :=
  compile expression (.whole expression)

theorem of_not (compile : PatternsCompile (.not inner)) : PatternsCompile inner :=
  fun part isPart => compile part (.inside isPart)

theorem of_or_left (compile : PatternsCompile (.or left right)) : PatternsCompile left :=
  fun part isPart => compile part (.left isPart right)

theorem of_or_right (compile : PatternsCompile (.or left right)) : PatternsCompile right :=
  fun part isPart => compile part (.right left isPart)

theorem of_and (compile : PatternsCompile (.and expressions)) :
    ∀ expression ∈ expressions, PatternsCompile expression :=
  fun _ member part isPart => compile part (.among member isPart)

end PatternsCompile

theorem exists_compiled_iff {slot : PatternSlot} {shape : TermPattern} :
    (∃ found, compiled slot shape = .ok found) ↔ ∀ handed ∈ some shape, handed.Compiles := by
  constructor
  · rintro ⟨found, translated⟩ handed same
    rw [← Option.some.inj same]
    exact (compiled_eq_ok.mp translated).1
  · exact fun compile => ⟨_, compiled_of_compiles (compile _ rfl) _⟩

/-- A pattern has a criterion in a field that holds no dates just when the engine takes it. -/
theorem exists_patternCriterion_iff (name : String) {field : Field} (noDate : field.isDate = false)
    {shape : TermPattern} :
    (∃ found, patternCriterion name field shape = .ok found) ↔
      ∀ handed ∈ fieldPattern? field shape, handed.Compiles := by
  cases field with
  | created | modified => cases noDate
  | _ => exact exists_compiled_iff

/-- A field that equals a value has a criterion unless the value is a directory whose pattern the
engine does not take. -/
theorem exists_equalityCriterion_iff {field : Field} {value : String} :
    (∃ found, equalityCriterion field value = .ok found) ↔
      ∀ handed ∈ comparisonPattern? field .equals value, handed.Compiles := by
  cases field with
  | path =>
      rw [equalityCriterion, comparisonPattern?]
      by_cases slash : (Text.lower value).toList.getLast? = some '/'
      · rw [if_pos (beq_iff_eq.mpr slash), if_pos ⟨rfl, slash⟩]
        exact exists_compiled_iff
      · rw [if_neg (mt beq_iff_eq.mp slash), if_neg fun both => slash both.2]
        exact iff_of_true ⟨_, rfl⟩ nofun
  | _ =>
      rw [comparisonPattern?, if_neg fun both => nomatch both.1]
      exact iff_of_true ⟨_, rfl⟩ nofun

/-- Whether an expression asks for a value or a pattern in a field that holds no dates. -/
inductive AsksForText : Expr -> Prop where
  | field {name : String} {comparison : Comparison}
      (noDate : (Field.ofName name).isDate = false) (noOrder : comparison.isOrdering = false)
      (value : String) : AsksForText (.field name comparison value)
  | wildcard {name : String} (noDate : (Note.patternField name).isDate = false)
      (pattern : String) (kind : WildcardKind) : AsksForText (.wildcard name pattern kind)

/-- Such an expression fails for a pattern that the engine does not take, and for nothing else. -/
theorem AsksForText.exists_criterion_iff {expression : Expr} (asks : AsksForText expression)
    (now : Time.Instant) :
    (∃ found, criterion now expression = .ok found) ↔
      ∀ handed ∈ ownPattern? expression, handed.Compiles := by
  cases asks with
  | @field name comparison noDate noOrder value =>
      rw [criterion, ownPattern?]
      unfold fieldCriterion
      dsimp only
      rw [noDate, if_neg Bool.false_ne_true]
      cases comparison with
      | equals => exact exists_equalityCriterion_iff
      | startsWith | endsWith => exact exists_patternCriterion_iff name noDate
      | greater | atLeast | less | atMost => cases noOrder
  | @wildcard name noDate => exact exists_patternCriterion_iff name noDate

end Index
end Commonplace
