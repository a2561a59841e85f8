import Commonplace.Proofs.Query.Chains

namespace Commonplace
namespace QueryLanguage

/-!
# The shape of a parsed query

A query text yields either literals that all have to hold, or one disjunction that leans to the left
and whose operands are literals and conjunctions of at least two of them.  A literal is an atom or a
negated one.  What an atom may be is a matter of its name and of how its value was written.
-/

/-- Whether a comparison is one that can be written in front of a value. -/
def IsWritten (comparison : Comparison) : Prop :=
  comparison ≠ .startsWith ∧ comparison ≠ .endsWith

/-- The atoms of a parsed query: only dates and ranges have the names of dates, and a pattern has a
star and another character. -/
inductive IsAtom : Expr -> Prop where
  | term (value : String) : IsAtom (.term value)
  | field {name : String} {comparison : Comparison} (known : name ∈ fieldNames)
      (noDate : name ∉ dateFieldNames) (written : IsWritten comparison) (value : String) :
      IsAtom (.field name comparison value)
  | date {name : String} {comparison : Comparison} (isDate : name ∈ dateFieldNames)
      (written : IsWritten comparison) (value : String) : IsAtom (.date name comparison value)
  | range {name : String} (isDate : name ∈ dateFieldNames) (start stop : String) :
      IsAtom (.range name start stop)
  | wildcard {name pattern : String} (known : name = "" ∨ name ∈ fieldNames)
      (noDate : name ∉ dateFieldNames) (star : '*' ∈ pattern.toList)
      (other : ∃ character ∈ pattern.toList, character ≠ '*') (kind : WildcardKind) :
      IsAtom (.wildcard name pattern kind)
  | exists (name : String) (negated : Bool) : IsAtom (.exists name negated)

/-- An atom, or a negated one. -/
inductive IsLiteral : Expr -> Prop where
  | plain {expression : Expr} (atom : IsAtom expression) : IsLiteral expression
  | negated {expression : Expr} (atom : IsAtom expression) : IsLiteral (.not expression)

/-- What a disjunction may join: a literal, or a conjunction of at least two. -/
inductive IsOperand : Expr -> Prop where
  | literal {expression : Expr} (literal : IsLiteral expression) : IsOperand expression
  | conjunction {expressions : List Expr} (several : 2 ≤ expressions.length)
      (literals : ∀ expression ∈ expressions, IsLiteral expression) : IsOperand (.and expressions)

/-- A disjunction of operands that leans to the left. -/
inductive IsSpine : Expr -> Prop where
  | first {left right : Expr} (leftOperand : IsOperand left) (rightOperand : IsOperand right) :
      IsSpine (.or left right)
  | next {left right : Expr} (leftSpine : IsSpine left) (rightOperand : IsOperand right) :
      IsSpine (.or left right)

/-- The shape of a parsed query: literals that all have to hold, or one disjunction. -/
def HasShape (query : Query) : Prop :=
  (∀ expression ∈ query.expressions, IsLiteral expression) ∨
    ∃ spine, IsSpine spine ∧ query.expressions = [spine]

/-! ## Atoms and literals -/

theorem isPattern_iff {value : String} :
    isPattern value = true ↔
      '*' ∈ value.toList ∧ ∃ character ∈ value.toList, character ≠ '*' := by
  simp [isPattern, WildcardKind.isStar]

theorem isAtom_bareWord (word : String) : IsAtom (bareWord word) := by
  unfold bareWord
  split
  · rename_i pattern
    rcases isPattern_iff.mp pattern with ⟨star, other⟩
    exact .wildcard (.inl rfl) (by decide) star other _
  · exact .term word

theorem isAtom_of_fieldExpr {name value : String} {comparison : Comparison} {quoted : Bool}
    {start : List Char} {expression : Expr} (known : name ∈ fieldNames)
    (written : IsWritten comparison)
    (made : fieldExpr name comparison value quoted start = .ok expression) :
    IsAtom expression := by
  unfold fieldExpr at made
  split at made
  · rename_i isDate
    have dateName := List.contains_iff_mem.mp isDate
    unfold dateExpr at made
    split at made
    · cases made
      exact .date dateName written value
    · split at made
      · split at made
        · cases made
        · cases made
          exact .range dateName _ _
      · cases made
        exact .date dateName written value
  · rename_i notDate
    have noDate : name ∉ dateFieldNames := fun member => notDate (List.contains_iff_mem.mpr member)
    split at made
    · rename_i asPattern
      cases made
      rw [Bool.and_eq_true] at asPattern
      rcases isPattern_iff.mp asPattern.2 with ⟨star, other⟩
      exact .wildcard (.inr known) noDate star other _
    · cases made
      exact .field known noDate written value

/-- A comparison that is read is one that can be written. -/
theorem StandsBefore.isWritten {comparison : Comparison} {rest : List Char}
    (stands : StandsBefore comparison rest) : IsWritten comparison := by
  constructor
  · rintro rfl
    exact stands
  · rintro rfl
    exact stands

theorem ReadsAtom.isAtom {characters rest : List Char} {expression : Expr}
    (reads : ReadsAtom characters expression rest) : IsAtom expression := by
  cases reads with
  | phrase => exact .term _
  | word => exact isAtom_bareWord _
  | presence => exact .exists _ _
  | field _ known _ stands _ made => exact isAtom_of_fieldExpr known stands.isWritten made

theorem ReadsExpr.isLiteral {characters rest : List Char} {expression : Expr}
    (reads : ReadsExpr characters expression rest) : IsLiteral expression := by
  cases reads with
  | plain _ reads => exact .plain reads.isAtom
  | negated reads => exact .negated reads.isAtom

theorem ReadsChains.isLiteral {text : List Char} {chains : List (List Expr)}
    (reads : ReadsChains text chains) :
    ∀ chain ∈ chains, ∀ expression ∈ chain, IsLiteral expression := by
  intro chain inChains expression inChain
  rcases reads.spells.exists_reads (mem_marksOf inChain inChains) with ⟨_, _, readsExpr⟩
  exact readsExpr.isLiteral

/-! ## Chains and their disjunction -/

theorem isOperand_conjunction {chain : List Expr} (notEmpty : chain ≠ [])
    (literals : ∀ expression ∈ chain, IsLiteral expression) :
    IsOperand (.conjunction chain) := by
  match chain, notEmpty with
  | [expression], _ => exact .literal (literals expression List.mem_cons_self)
  | _ :: _ :: rest, _ => exact .conjunction (Nat.le_add_left 2 rest.length) literals

/-- Joining one more chain after another keeps a disjunction leaning to the left. -/
theorem isSpine_foldl_or {spine : Expr} (isSpine : IsSpine spine) {rest : List (List Expr)}
    (notEmpty : ∀ chain ∈ rest, chain ≠ [])
    (literals : ∀ chain ∈ rest, ∀ expression ∈ chain, IsLiteral expression) :
    IsSpine (rest.foldl (fun left chain => Expr.or left (.conjunction chain)) spine) := by
  induction rest generalizing spine with
  | nil => exact isSpine
  | cons chain rest inductionHypothesis =>
      have some := List.forall_mem_cons.mp notEmpty
      have parts := List.forall_mem_cons.mp literals
      exact inductionHypothesis (.next isSpine (isOperand_conjunction some.1 parts.1)) some.2
        parts.2

/-- The chains of a text are joined to a query of the shape. -/
theorem ReadsChains.hasShape {text : List Char} {chains : List (List Expr)}
    (reads : ReadsChains text chains) (raw : String) : HasShape ⟨joinChains chains, raw⟩ := by
  have literals := reads.isLiteral
  match chains, reads.proper with
  | [], proper => exact absurd rfl proper.ne_nil
  | [chain], _ => exact .inl (literals chain List.mem_cons_self)
  | first :: second :: rest, proper =>
      rcases proper with single | ⟨_, notEmpty⟩
      · cases single
      · have firstNotEmpty := List.forall_mem_cons.mp notEmpty
        have otherNotEmpty := List.forall_mem_cons.mp firstNotEmpty.2
        have firstLiterals := List.forall_mem_cons.mp literals
        have otherLiterals := List.forall_mem_cons.mp firstLiterals.2
        have pair : IsSpine (.or (.conjunction first) (.conjunction second)) :=
          .first (isOperand_conjunction firstNotEmpty.1 firstLiterals.1)
            (isOperand_conjunction otherNotEmpty.1 otherLiterals.1)
        exact .inr ⟨_, isSpine_foldl_or pair otherNotEmpty.2 otherLiterals.2, rfl⟩

/-- Every query that is read from a text has the shape. -/
theorem hasShape_of_parse {input : String} {query : Query} (parsed : parse input = .ok query) :
    HasShape query := by
  rcases parse_eq_ok.mp parsed with ⟨chains, reads, rfl⟩
  exact reads.hasShape input

end QueryLanguage
end Commonplace
