import Commonplace.Proofs.Index.Compiling
import Commonplace.Proofs.Query.Shape

namespace Commonplace
namespace Index

open QueryLanguage

/-!
# Which queries have no criterion

A query that was read from a text, and whose patterns compile, has a criterion unless one of its
parts means nothing: a text is compared by an order, or a date text names no date, or no window of
time.  The first such part is the one that is reported.
-/

/-- Why a part of a query means nothing at a given time. -/
inductive HasFault (now : Time.Instant) : Expr -> Fault -> Prop where
  | order {name value : String} {comparison : Comparison}
      (isOrdering : comparison.isOrdering = true) :
      HasFault now (.field name comparison value) (.meaningless name value .orderOfText)
  | unknownDate {name value : String} {comparison : Comparison}
      (unknown : Time.reference? value now = none) :
      HasFault now (.date name comparison value) (.meaningless name value .unknownDate)
  | noWindow {name value : String} {comparison : Comparison} {reference : Time.Reference}
      (names : Time.reference? value now = some reference)
      (outside : Time.Window.ofReference? comparison reference = none) :
      HasFault now (.date name comparison value) (.meaningless name value .noSuchWindow)
  | unknownStart {name start stop : String} (unknown : Time.reference? start now = none) :
      HasFault now (.range name start stop) (.meaningless name start .unknownDate)
  | unknownStop {name start stop : String} {first : Time.Reference}
      (namesStart : Time.reference? start now = some first)
      (unknown : Time.reference? stop now = none) :
      HasFault now (.range name start stop) (.meaningless name stop .unknownDate)
  | lateStop {name start stop : String} {first last : Time.Reference}
      (namesStart : Time.reference? start now = some first)
      (namesStop : Time.reference? stop now = some last)
      (outside : Time.Window.throughDay? first.start last.start = none) :
      HasFault now (.range name start stop) (.meaningless name stop .lateDate)

/-- A fault of a part says which field and value mean nothing, and why. -/
theorem HasFault.meaningless {now : Time.Instant} {expression : Expr} {fault : Fault}
    (hasFault : HasFault now expression fault) :
    ∃ name value cause, fault = .meaningless name value cause := by
  cases hasFault <;> exact ⟨_, _, _, rfl⟩

/-- Whether some part of an expression has a fault. -/
def HoldsFault (now : Time.Instant) (fault : Fault) (expression : Expr) : Prop :=
  ∃ part, IsPart part expression ∧ HasFault now part fault

section Parts

variable {now : Time.Instant} {fault : Fault}

theorem holdsFault_of_hasFault {expression : Expr} (hasFault : HasFault now expression fault) :
    HoldsFault now fault expression :=
  ⟨expression, .whole expression, hasFault⟩

theorem holdsFault_not {inner : Expr} :
    HoldsFault now fault (.not inner) ↔ HoldsFault now fault inner := by
  constructor
  · rintro ⟨part, isPart, hasFault⟩
    cases isPart with
    | whole => cases hasFault
    | inside isPart => exact ⟨part, isPart, hasFault⟩
  · rintro ⟨part, isPart, hasFault⟩
    exact ⟨part, .inside isPart, hasFault⟩

theorem holdsFault_or {left right : Expr} :
    HoldsFault now fault (.or left right) ↔
      HoldsFault now fault left ∨ HoldsFault now fault right := by
  constructor
  · rintro ⟨part, isPart, hasFault⟩
    cases isPart with
    | whole => cases hasFault
    | left isPart => exact .inl ⟨part, isPart, hasFault⟩
    | right _ isPart => exact .inr ⟨part, isPart, hasFault⟩
  · rintro (⟨part, isPart, hasFault⟩ | ⟨part, isPart, hasFault⟩)
    · exact ⟨part, .left isPart right, hasFault⟩
    · exact ⟨part, .right left isPart, hasFault⟩

theorem holdsFault_and {expressions : List Expr} :
    HoldsFault now fault (.and expressions) ↔
      ∃ expression ∈ expressions, HoldsFault now fault expression := by
  constructor
  · rintro ⟨part, isPart, hasFault⟩
    cases isPart with
    | whole => cases hasFault
    | among member isPart => exact ⟨_, member, part, isPart, hasFault⟩
  · rintro ⟨expression, member, part, isPart, hasFault⟩
    exact ⟨part, .among member isPart, hasFault⟩

end Parts

/-! ## Leaves -/

/-- A computation in two steps fails when its first step does, or its second. -/
theorem bind_eq_error {fault first second : Type} {action : Except fault first}
    {next : first -> Except fault second} {found : fault} :
    (action >>= next) = .error found ↔
      action = .error found ∨ ∃ value, action = .ok value ∧ next value = .error found := by
  cases action with
  | error other => exact ⟨fun same => .inl (by cases same; rfl), by rintro (⟨⟨⟩⟩ | ⟨_, ⟨⟩, _⟩); rfl⟩
  | ok value =>
      constructor
      · exact fun fails => .inr ⟨value, rfl, fails⟩
      · rintro (⟨⟨⟩⟩ | ⟨_, ⟨⟩, fails⟩)
        exact fails

/-- A computation that combines two results fails when the first one does, or else the second. -/
theorem bind_both_eq_error {fault first second result : Type} {action : Except fault first}
    {other : Except fault second} {combine : first -> second -> result} {found : fault} :
    (action >>= fun value => other >>= fun more => .ok (combine value more)) = .error found ↔
      action = .error found ∨ (∃ value, action = .ok value) ∧ other = .error found := by
  rw [bind_eq_error]
  cases action with
  | error first => simp
  | ok value => cases other <;> simp [bind, Except.bind]

theorem exists_error_of_either {fault first second result : Type} {action : Except fault first}
    {other : Except fault second} {combine : first -> second -> result}
    (either : (∃ found, action = .error found) ∨ ∃ found, other = .error found) :
    ∃ found, (action >>= fun value => other >>= fun more => .ok (combine value more)) =
      .error found := by
  simp only [bind_both_eq_error]
  cases action with
  | error first => exact ⟨first, .inl rfl⟩
  | ok value =>
      rcases either with ⟨_, ⟨⟩⟩ | ⟨found, failed⟩
      exact ⟨found, .inr ⟨⟨value, rfl⟩, failed⟩⟩

theorem isDate_iff_of_fieldName : ∀ name ∈ fieldNames,
    ((Field.ofName name).isDate = true ↔ name ∈ dateFieldNames) := by
  decide +kernel

theorem isEmpty_eq_false_of_fieldName : ∀ name ∈ fieldNames, name.isEmpty = false := by
  decide

theorem exists_dateSlot {name : String} (isDate : name ∈ dateFieldNames) (value : String) :
    ∃ slot, dateSlot name value = .ok slot := by
  rcases List.mem_cons.mp isDate with rfl | later
  · exact ⟨.created, rfl⟩
  · rw [List.mem_singleton.mp later]
    exact ⟨.modified, rfl⟩

theorem windowOf_eq_error {now : Time.Instant} {name value : String} {comparison : Comparison}
    {fault : Fault} :
    Note.windowOf now name comparison value = .error fault ↔
      HasFault now (.date name comparison value) fault := by
  unfold Note.windowOf
  constructor
  · intro fails
    split at fails
    · rename_i unknown
      cases fails
      exact .unknownDate unknown
    · rename_i reference names
      split at fails
      · rename_i outside
        cases fails
        exact .noWindow names outside
      · cases fails
  · intro hasFault
    cases hasFault with
    | unknownDate unknown => rw [unknown]
    | noWindow names outside =>
        rw [names]
        dsimp only
        rw [outside]

theorem instantOf_eq_error {now : Time.Instant} {name value : String} {fault : Fault} :
    Note.instantOf now name value = .error fault ↔
      Time.reference? value now = none ∧ fault = .meaningless name value .unknownDate := by
  unfold Note.instantOf
  cases Time.reference? value now <;> simp [eq_comm]

theorem instantOf_eq_ok {now : Time.Instant} {name value : String} {instant : Time.Instant} :
    Note.instantOf now name value = .ok instant ↔
      ∃ reference, Time.reference? value now = some reference ∧ reference.start = instant := by
  unfold Note.instantOf
  cases Time.reference? value now <;> simp

theorem rangeOf_eq_error {now : Time.Instant} {name start stop : String} {fault : Fault} :
    Note.rangeOf now name start stop = .error fault ↔
      HasFault now (.range name start stop) fault := by
  unfold Note.rangeOf
  rw [bind_eq_error, instantOf_eq_error]
  constructor
  · rintro (⟨unknown, rfl⟩ | ⟨_, hasStart, fails⟩)
    · exact .unknownStart unknown
    · rcases instantOf_eq_ok.mp hasStart with ⟨first, namesStart, rfl⟩
      rcases bind_eq_error.mp fails with noStop | ⟨_, hasStop, fails⟩
      · rcases instantOf_eq_error.mp noStop with ⟨unknown, rfl⟩
        exact .unknownStop namesStart unknown
      · rcases instantOf_eq_ok.mp hasStop with ⟨last, namesStop, rfl⟩
        split at fails
        · rename_i outside
          cases fails
          exact .lateStop namesStart namesStop outside
        · cases fails
  · intro hasFault
    cases hasFault with
    | unknownStart unknown => exact .inl ⟨unknown, rfl⟩
    | unknownStop namesStart unknown =>
        refine .inr ⟨_, instantOf_eq_ok.mpr ⟨_, namesStart, rfl⟩, ?_⟩
        exact bind_eq_error.mpr (.inl (instantOf_eq_error.mpr ⟨unknown, rfl⟩))
    | lateStop namesStart namesStop outside =>
        refine .inr ⟨_, instantOf_eq_ok.mpr ⟨_, namesStart, rfl⟩, ?_⟩
        refine bind_eq_error.mpr (.inr ⟨_, instantOf_eq_ok.mpr ⟨_, namesStop, rfl⟩, ?_⟩)
        rw [outside]

/-- A computation whose later steps succeed fails just when its first step does. -/
theorem bind_eq_error_of_ok {fault first second : Type} {action : Except fault first}
    {next : first -> Except fault second} (succeeds : ∀ value, ∃ result, next value = .ok result)
    {found : fault} : (action >>= next) = .error found ↔ action = .error found := by
  rw [bind_eq_error]
  refine ⟨fun fails => fails.resolve_right ?_, .inl⟩
  rintro ⟨value, _, fails⟩
  rcases succeeds value with ⟨result, same⟩
  rw [same] at fails
  cases fails

/-- A computation whose first step succeeds fails just when the rest does. -/
theorem bind_eq_error_of_eq_ok {fault first second : Type} {action : Except fault first}
    {value : first} (succeeds : action = .ok value) {next : first -> Except fault second}
    {found : fault} : (action >>= next) = .error found ↔ next value = .error found := by
  subst succeeds
  exact Iff.rfl

theorem dateCriterion_eq_error {now : Time.Instant} {name value : String}
    {comparison : Comparison} {fault : Fault} (isDate : name ∈ dateFieldNames) :
    dateCriterion now name comparison value = .error fault ↔
      HasFault now (.date name comparison value) fault := by
  rcases exists_dateSlot isDate value with ⟨slot, hasSlot⟩
  unfold dateCriterion
  rw [bind_eq_error_of_eq_ok hasSlot, ← windowOf_eq_error]
  apply bind_eq_error_of_ok
  intro window
  exact ⟨.dated slot window, rfl⟩

theorem rangeCriterion_eq_error {now : Time.Instant} {name start stop : String} {fault : Fault}
    (isDate : name ∈ dateFieldNames) :
    rangeCriterion now name start stop = .error fault ↔
      HasFault now (.range name start stop) fault := by
  rcases exists_dateSlot isDate start with ⟨slot, hasSlot⟩
  unfold rangeCriterion
  rw [bind_eq_error_of_eq_ok hasSlot, ← rangeOf_eq_error]
  apply bind_eq_error_of_ok
  intro window
  exact ⟨.dated slot window, rfl⟩

/-- What has a criterion does not fail. -/
theorem ne_error_of_exists {fault result : Type} {outcome : Except fault result}
    (succeeds : ∃ value, outcome = .ok value) (found : fault) : outcome ≠ .error found := by
  rintro rfl
  rcases succeeds with ⟨value, same⟩
  cases same

section Engine

variable [PatternEngine]

theorem fieldCriterion_eq_error {now : Time.Instant} {name value : String}
    {comparison : Comparison} {fault : Fault} (noDate : (Field.ofName name).isDate = false)
    (written : IsWritten comparison)
    (compile : ∀ shape ∈ comparisonPattern? (Field.ofName name) comparison value, shape.Compiles) :
    fieldCriterion now name comparison value = .error fault ↔
      HasFault now (.field name comparison value) fault := by
  unfold fieldCriterion
  dsimp only
  rw [noDate, if_neg Bool.false_ne_true]
  constructor
  · intro fails
    cases comparison with
    | startsWith => exact absurd rfl written.1
    | endsWith => exact absurd rfl written.2
    | equals => exact absurd fails (ne_error_of_exists (exists_equalityCriterion_iff.mpr compile) _)
    | greater | atLeast | less | atMost =>
        cases fails
        exact .order rfl
  · rintro ⟨isOrdering⟩
    cases comparison with
    | startsWith | endsWith | equals => cases isOrdering
    | greater | atLeast | less | atMost => rfl

/-- An atom of a parsed query has no criterion just when it has a fault, which is reported. -/
theorem criterion_atom_eq_error {now : Time.Instant} {expression : Expr} {fault : Fault}
    (atom : IsAtom expression) (compile : ∀ shape ∈ ownPattern? expression, shape.Compiles) :
    criterion now expression = .error fault ↔ HasFault now expression fault := by
  cases atom with
  | term | «exists» =>
      constructor
      · intro fails
        cases fails
      · intro hasFault
        cases hasFault
  | field known noDate written value =>
      have isDate := isDate_iff_of_fieldName _ known
      exact fieldCriterion_eq_error (Bool.eq_false_iff.mpr fun same => noDate (isDate.mp same))
        written compile
  | date isDate => exact dateCriterion_eq_error isDate
  | range isDate => exact rangeCriterion_eq_error isDate
  | @wildcard name pattern known noDate star other kind =>
      have noDateField : (Note.patternField name).isDate = false := by
        rcases known with rfl | known
        · rfl
        · have isDate := isDate_iff_of_fieldName _ known
          rw [Note.patternField, isEmpty_eq_false_of_fieldName name known,
            if_neg Bool.false_ne_true]
          exact Bool.eq_false_iff.mpr fun same => noDate (isDate.mp same)
      have succeeds := (exists_patternCriterion_iff name noDateField).mpr compile
      constructor
      · exact fun fails => absurd fails (ne_error_of_exists succeeds _)
      · intro hasFault
        cases hasFault

/-! ## Trees -/

/-- Whether an expression fails to have a criterion just when one of its parts has a fault, which is
then reported. -/
structure IsExact (now : Time.Instant) (expression : Expr) : Prop where
  sound : ∀ fault, criterion now expression = .error fault → HoldsFault now fault expression
  complete : ∀ fault, HoldsFault now fault expression →
    ∃ first, criterion now expression = .error first

section Trees

variable {now : Time.Instant}

theorem isExact_atom {expression : Expr} (atom : IsAtom expression)
    (compile : PatternsCompile expression) : IsExact now expression where
  sound := fun _ fails =>
    holdsFault_of_hasFault ((criterion_atom_eq_error atom compile.own).mp fails)
  complete := by
    rintro fault ⟨part, isPart, hasFault⟩
    have same : part = expression := by
      cases atom <;> cases isPart <;> rfl
    subst same
    exact ⟨fault, (criterion_atom_eq_error atom compile.own).mpr hasFault⟩

theorem isExact_not {inner : Expr} (exact : IsExact now inner) : IsExact now (.not inner) := by
  have fails : ∀ fault, criterion now (.not inner) = .error fault ↔
      criterion now inner = .error fault := by
    intro fault
    rw [criterion]
    apply bind_eq_error_of_ok
    intro found
    exact ⟨found.negation, rfl⟩
  constructor
  · intro fault failed
    exact holdsFault_not.mpr (exact.sound fault ((fails fault).mp failed))
  · intro fault holds
    rcases exact.complete fault (holdsFault_not.mp holds) with ⟨first, failed⟩
    exact ⟨first, (fails first).mpr failed⟩

theorem isExact_literal {expression : Expr} (literal : IsLiteral expression)
    (compile : PatternsCompile expression) : IsExact now expression := by
  cases literal with
  | plain atom => exact isExact_atom atom compile
  | negated atom => exact isExact_not (isExact_atom atom compile.of_not)

theorem isExact_or {left right : Expr} (leftExact : IsExact now left)
    (rightExact : IsExact now right) : IsExact now (.or left right) := by
  constructor
  · intro fault failed
    rw [holdsFault_or]
    rcases bind_both_eq_error.mp failed with onLeft | ⟨_, onRight⟩
    · exact .inl (leftExact.sound fault onLeft)
    · exact .inr (rightExact.sound fault onRight)
  · intro fault holds
    apply exists_error_of_either
    rcases holdsFault_or.mp holds with inLeft | inRight
    · exact .inl (leftExact.complete fault inLeft)
    · exact .inr (rightExact.complete fault inRight)

/-- Some expressions have no criteria just when one of them has none, and its fault is reported. -/
theorem criteria_exact {expressions : List Expr}
    (exact : ∀ expression ∈ expressions, IsExact now expression) :
    (∀ fault, criteria now expressions = .error fault →
        ∃ expression ∈ expressions, HoldsFault now fault expression) ∧
      ∀ fault, (∃ expression ∈ expressions, HoldsFault now fault expression) →
        ∃ first, criteria now expressions = .error first := by
  induction expressions with
  | nil =>
      constructor
      · intro fault failed
        cases failed
      · rintro fault ⟨expression, member, _⟩
        cases member
  | cons expression rest inductionHypothesis =>
      have parts := List.forall_mem_cons.mp exact
      rcases inductionHypothesis parts.2 with ⟨restSound, restComplete⟩
      constructor
      · intro fault failed
        rcases bind_both_eq_error.mp failed with onFirst | ⟨_, onRest⟩
        · exact ⟨expression, List.mem_cons_self, parts.1.sound fault onFirst⟩
        · rcases restSound fault onRest with ⟨other, member, holds⟩
          exact ⟨other, List.mem_cons_of_mem expression member, holds⟩
      · rintro fault ⟨other, member, holds⟩
        apply exists_error_of_either
        rcases List.mem_cons.mp member with rfl | later
        · exact .inl (parts.1.complete fault holds)
        · exact .inr (restComplete fault ⟨other, later, holds⟩)

theorem isExact_and {expressions : List Expr}
    (exact : ∀ expression ∈ expressions, IsExact now expression) :
    IsExact now (.and expressions) := by
  have fails : ∀ fault, criterion now (.and expressions) = .error fault ↔
      criteria now expressions = .error fault := by
    intro fault
    rw [criterion]
    apply bind_eq_error_of_ok
    intro required
    exact ⟨.conjunction required [], rfl⟩
  rcases criteria_exact exact with ⟨sound, complete⟩
  constructor
  · intro fault failed
    exact holdsFault_and.mpr (sound fault ((fails fault).mp failed))
  · intro fault holds
    rcases complete fault (holdsFault_and.mp holds) with ⟨first, failed⟩
    exact ⟨first, (fails first).mpr failed⟩

theorem isExact_operand {expression : Expr} (operand : IsOperand expression)
    (compile : PatternsCompile expression) : IsExact now expression := by
  cases operand with
  | literal literal => exact isExact_literal literal compile
  | conjunction _ literals =>
      exact isExact_and fun expression member =>
        isExact_literal (literals expression member) (compile.of_and expression member)

theorem isExact_spine {expression : Expr} (spine : IsSpine expression)
    (compile : PatternsCompile expression) : IsExact now expression := by
  induction spine with
  | first leftOperand rightOperand =>
      exact isExact_or (isExact_operand leftOperand compile.of_or_left)
        (isExact_operand rightOperand compile.of_or_right)
  | next _ rightOperand inductionHypothesis =>
      exact isExact_or (inductionHypothesis compile.of_or_left)
        (isExact_operand rightOperand compile.of_or_right)

theorem isExact_of_hasShape {query : Query} (shape : HasShape query)
    (compile : ∀ expression ∈ query.expressions, PatternsCompile expression) :
    ∀ expression ∈ query.expressions, IsExact now expression := by
  intro expression member
  rcases shape with literals | ⟨spine, isSpine, same⟩
  · exact isExact_literal (literals expression member) (compile expression member)
  · have compiles := compile expression member
    rw [same, List.mem_singleton] at member
    rw [member] at compiles ⊢
    exact isExact_spine isSpine compiles

theorem queryCriterion_eq_error {query : Query} {fault : Fault} :
    queryCriterion now query = .error fault ↔
      criteria now query.expressions = .error fault := by
  unfold queryCriterion
  apply bind_eq_error_of_ok
  intro required
  exact ⟨.conjunction required [], rfl⟩

end Trees

/-- Every query that is read from a text has the shape.  If its patterns compile, it has no
criterion at a time just when some part of it has a fault: a text compared by an order, or a date
text that names no date or no window.  What is reported is the fault of such a part, with its field
and value. -/
theorem parsed_query_has_criterion_or_fault {input : String} {query : Query}
    (parsed : parse input = .ok query) :
    HasShape query ∧ ((∀ expression ∈ query.expressions, PatternsCompile expression) → ∀ now,
      ((∃ fault, queryCriterion now query = .error fault) ↔
        ∃ fault, ∃ expression ∈ query.expressions, HoldsFault now fault expression) ∧
      ∀ fault, queryCriterion now query = .error fault →
        (∃ expression ∈ query.expressions, HoldsFault now fault expression) ∧
          ∃ name value cause, fault = .meaningless name value cause) := by
  have shape := hasShape_of_parse parsed
  refine ⟨shape, fun compile now => ?_⟩
  rcases criteria_exact (isExact_of_hasShape shape compile) with ⟨sound, complete⟩
  simp only [queryCriterion_eq_error]
  refine ⟨⟨?_, ?_⟩, ?_⟩
  · rintro ⟨fault, failed⟩
    exact ⟨fault, sound fault failed⟩
  · rintro ⟨fault, holds⟩
    exact complete fault holds
  · intro fault failed
    rcases sound fault failed with ⟨expression, member, part, isPart, hasFault⟩
    exact ⟨⟨expression, member, part, isPart, hasFault⟩, hasFault.meaningless⟩

end Engine

open scoped PatternEngine

/-- An order is asked of a title, in the second chain of a disjunction. -/
theorem order_of_title_is_reported :
    parse "-tag:a created:>2024-01-01 OR java* title:>x" =
        .ok ⟨[.or (.and [.not (.field "tag" .equals "a"), .date "created" .greater "2024-01-01"])
          (.and [.wildcard "" "java*" .openEnd, .field "title" .greater "x"])],
          "-tag:a created:>2024-01-01 OR java* title:>x"⟩ ∧
      ∀ now, ∃ fault, queryCriterion now
        ⟨[.or (.and [.not (.field "tag" .equals "a"), .date "created" .greater "2024-01-01"])
          (.and [.wildcard "" "java*" .openEnd, .field "title" .greater "x"])],
          "-tag:a created:>2024-01-01 OR java* title:>x"⟩ = .error fault := by
  have parsed : parse "-tag:a created:>2024-01-01 OR java* title:>x" =
      .ok ⟨[.or (.and [.not (.field "tag" .equals "a"), .date "created" .greater "2024-01-01"])
        (.and [.wildcard "" "java*" .openEnd, .field "title" .greater "x"])],
        "-tag:a created:>2024-01-01 OR java* title:>x"⟩ := by rfl
  refine ⟨parsed, fun now => ?_⟩
  refine ((parsed_query_has_criterion_or_fault parsed).2 (fun _ _ _ _ _ _ => rfl) now).1.mpr ?_
  have part : IsPart (.field "title" .greater "x")
      (.or (.and [.not (.field "tag" .equals "a"), .date "created" .greater "2024-01-01"])
        (.and [.wildcard "" "java*" .openEnd, .field "title" .greater "x"])) :=
    .right _ (.among (List.mem_cons_of_mem _ List.mem_cons_self) (.whole _))
  exact ⟨_, _, List.mem_cons_self, _, part, .order rfl⟩

end Index
end Commonplace
