import Commonplace.Proofs.Query.Items

namespace Commonplace

/-!
# Chains of a query

A query is read as chains of expressions that are joined by the keyword.  They follow from what the
text spells, and they can be read off the tree again, since no expression that is read is itself a
disjunction or a conjunction.
-/

namespace QueryLanguage

/-! ## Chains of a text -/

/-- Whether chains can be those of a text: all have an expression, unless the text has none. -/
def AreProper (chains : List (List Expr)) : Prop :=
  chains = [[]] ∨ chains ≠ [] ∧ ∀ chain ∈ chains, chain ≠ []

/-- A text and the chains that it is read as. -/
structure ReadsChains (text : List Char) (chains : List (List Expr)) : Prop where
  spells : Spells text (marksOf chains)
  proper : AreProper chains

theorem chainsFrom_failed (failure : Failure) (chain : List Expr) (items : List Item)
    (chains : List (List Expr)) : chainsFrom (some failure) chain items ≠ .ok chains := by
  induction items generalizing chain chains with
  | nil => exact fun same => nomatch same
  | cons item rest inductionHypothesis =>
      cases item with
      | expr expression => exact inductionHypothesis _ chains
      | or unread =>
          rw [chainsFrom]
          split
          · intro same
            rcases map_eq_ok.mp same with ⟨others, found, _⟩
            exact inductionHypothesis _ others found
          · exact fun same => nomatch same

theorem exprFollows_eq (items : List Item) :
    exprFollows items none = (items.map Item.expr?).head?.any Option.isSome := by
  match items with
  | [] | .expr _ :: _ | .or _ :: _ => rfl

/-- An expression comes next just when the first chain of the items has one. -/
theorem exprFollows_iff {items : List Item} {first : List Expr} {rest : List (List Expr)}
    (marks : items.map Item.expr? = marksOf (first :: rest)) :
    exprFollows items none = true ↔ first ≠ [] := by
  rw [exprFollows_eq, marks]
  cases first <;> cases rest <;> simp [marksOf]

/-- Items are put together to chains just when every keyword stands in front of an expression. -/
theorem chainsFrom_eq_ok {chain : List Expr} {items : List Item} {chains : List (List Expr)} :
    chainsFrom none chain items = .ok chains ↔
      ∃ first rest, chains = (chain ++ first) :: rest ∧
        items.map Item.expr? = marksOf (first :: rest) ∧ ∀ other ∈ rest, other ≠ [] := by
  induction items generalizing chain chains with
  | nil =>
      constructor
      · rintro ⟨⟩
        exact ⟨[], [], by rw [List.append_nil], rfl, fun _ member => nomatch member⟩
      · rintro ⟨first, rest, rfl, marks, _⟩
        cases rest with
        | cons next others =>
            rw [marksOf_cons _ (List.cons_ne_nil _ _)] at marks
            exact absurd marks.symm (List.append_ne_nil_of_right_ne_nil _ (List.cons_ne_nil _ _))
        | nil =>
            have empty := List.map_eq_nil_iff.mp marks.symm
            rw [empty, List.append_nil]
            rfl
  | cons item rest inductionHypothesis =>
      cases item with
      | expr expression =>
          rw [chainsFrom, inductionHypothesis]
          constructor
          · rintro ⟨first, others, rfl, marks, notEmpty⟩
            refine ⟨expression :: first, others, by rw [List.append_assoc]; rfl, ?_, notEmpty⟩
            rw [List.map_cons, marks]
            cases others <;> rfl
          · rintro ⟨first, others, rfl, marks, notEmpty⟩
            cases first with
            | nil =>
                -- Marks that begin without an expression begin with the keyword or are none at all.
                cases others with
                | nil => cases marks
                | cons next others => cases marks
            | cons head first =>
                have sameMarks : some expression :: rest.map Item.expr? =
                    some head :: marksOf (first :: others) := by
                  cases others <;> exact marks
                injection sameMarks with sameHead sameMarks
                refine ⟨first, others, ?_, sameMarks, notEmpty⟩
                rw [Option.some.inj sameHead, List.append_assoc]
                rfl
      | or unread =>
          rw [chainsFrom]
          constructor
          · intro reads
            split at reads
            · rename_i follows
              rcases map_eq_ok.mp reads with ⟨others, found, rfl⟩
              rcases inductionHypothesis.mp found with ⟨first, later, rfl, marks, notEmpty⟩
              refine ⟨[], first :: later, by rw [List.append_nil]; rfl, ?_, ?_⟩
              · rw [List.map_cons, marks, marksOf_cons _ (List.cons_ne_nil _ _)]
                rfl
              · refine List.forall_mem_cons.mpr ⟨?_, notEmpty⟩
                exact (exprFollows_iff marks).mp follows
            · cases reads
          · rintro ⟨first, others, rfl, marks, notEmpty⟩
            cases first with
            | cons head first => cases others <;> cases marks
            | nil =>
                cases others with
                | nil => cases marks
                | cons next others =>
                    have later := (List.cons.inj marks).2
                    have parts := List.forall_mem_cons.mp notEmpty
                    rw [if_pos ((exprFollows_iff later).mpr parts.1),
                      inductionHypothesis.mpr ⟨next, others, rfl, later, parts.2⟩,
                      List.append_nil]
                    rfl

theorem Scan.chains_eq_ok {scan : Scan} {chains : List (List Expr)} :
    scan.chains = .ok chains ↔
      scan.failure = none ∧ scan.items.map Item.expr? = marksOf chains ∧ AreProper chains := by
  unfold Scan.chains
  constructor
  · intro found
    split at found
    · cases found
    · rename_i noKeyword
      cases sound : scan.failure with
      | some failure =>
          rw [sound] at found
          exact absurd found (chainsFrom_failed failure [] _ chains)
      | none =>
          rw [sound] at found
          rcases chainsFrom_eq_ok.mp found with ⟨first, rest, rfl, marks, notEmpty⟩
          refine ⟨rfl, marks, ?_⟩
          by_cases empty : first = []
          · subst empty
            cases rest with
            | nil => exact .inl rfl
            | cons next others =>
                -- Such marks begin with a keyword, in front of which no expression stands.
                exfalso
                match items : scan.items with
                | [] | .expr _ :: _ =>
                    rw [items] at marks
                    cases marks
                | .or unread :: _ => exact noKeyword unread _ items
          · exact .inr ⟨List.cons_ne_nil _ _, List.forall_mem_cons.mpr ⟨empty, notEmpty⟩⟩
  · rintro ⟨sound, marks, proper⟩
    rw [sound]
    have found : chainsFrom none [] scan.items = .ok chains := by
      rw [chainsFrom_eq_ok]
      rcases proper with rfl | ⟨some, notEmpty⟩
      · exact ⟨[], [], rfl, marks, fun _ member => nomatch member⟩
      · cases chains with
        | nil => exact absurd rfl some
        | cons first rest => exact ⟨first, rest, rfl, marks, (List.forall_mem_cons.mp notEmpty).2⟩
    split
    · rename_i unread rest items
      rw [items] at marks
      rcases proper with rfl | ⟨some, notEmpty⟩
      · cases marks
      · match chains, some with
        | first :: others, _ =>
            have follows := (exprFollows_iff marks).mpr (notEmpty first List.mem_cons_self)
            cases follows
    · exact found

/-- The chains of a text are found just when it is read as them. -/
theorem scan_chains_eq_ok {text : List Char} {chains : List (List Expr)} :
    (scan text).chains = .ok chains ↔ ReadsChains text chains := by
  rw [Scan.chains_eq_ok, ← and_assoc, ← spells_iff]
  exact ⟨fun found => ⟨found.1, found.2⟩, fun reads => ⟨reads.spells, reads.proper⟩⟩

/-- A text that can be read is read as chains, and the expressions of its query join them. -/
theorem parse_eq_ok {input : String} {query : Query} :
    parse input = .ok query ↔
      ∃ chains, ReadsChains input.toList chains ∧ query = ⟨joinChains chains, input⟩ := by
  unfold parse readExprs
  constructor
  · intro parsed
    cases found : (scan input.toList).chains with
    | error failure =>
        rw [found] at parsed
        cases parsed
    | ok chains =>
        rw [found] at parsed
        exact ⟨chains, scan_chains_eq_ok.mp found, (Except.ok.inj parsed).symm⟩
  · rintro ⟨chains, reads, rfl⟩
    rw [scan_chains_eq_ok.mpr reads]
    rfl

/-! ## Chains of a tree -/

/-- Whether an expression joins no others, as those that are read do not. -/
def IsSimple : Expr -> Prop
  | .and _ | .or _ _ => False
  | _ => True

theorem isSimple_bareWord (word : String) : IsSimple (bareWord word) := by
  unfold bareWord
  split <;> trivial

theorem isSimple_of_fieldExpr {name value : String} {comparison : Comparison} {quoted : Bool}
    {start : List Char} {expression : Expr}
    (made : fieldExpr name comparison value quoted start = .ok expression) :
    IsSimple expression := by
  unfold fieldExpr dateExpr at made
  repeat' split at made
  all_goals cases made
  all_goals trivial

theorem ReadsExpr.isSimple {characters rest : List Char} {expression : Expr}
    (reads : ReadsExpr characters expression rest) : IsSimple expression := by
  cases reads with
  | negated => trivial
  | plain _ reads =>
      cases reads with
      | phrase | presence => trivial
      | word => exact isSimple_bareWord _
      | field _ _ _ _ _ made => exact isSimple_of_fieldExpr made

/-- An expression among the marks of a text was read somewhere in it. -/
theorem Spells.exists_reads {text : List Char} {marks : List (Option Expr)}
    (spells : Spells text marks) {expression : Expr} (member : some expression ∈ marks) :
    ∃ characters rest, ReadsExpr characters expression rest := by
  induction spells with
  | done => cases member
  | blank _ _ inductionHypothesis => exact inductionHypothesis member
  | keyword _ _ inductionHypothesis =>
      exact inductionHypothesis (List.mem_of_ne_of_mem (by exact Option.some_ne_none _) member)
  | expr _ reads _ inductionHypothesis =>
      rcases List.mem_cons.mp member with same | later
      · rw [Option.some.inj same]
        exact ⟨_, _, reads⟩
      · exact inductionHypothesis later

theorem Spells.isSimple {text : List Char} {marks : List (Option Expr)}
    (spells : Spells text marks) {expression : Expr} (member : some expression ∈ marks) :
    IsSimple expression := by
  rcases spells.exists_reads member with ⟨_, _, reads⟩
  exact reads.isSimple

end QueryLanguage

open QueryLanguage

namespace Expr

/-- The expressions of a chain that became one. -/
def chain : Expr -> List Expr
  | .and expressions => expressions
  | expression => [expression]

/-- The chains that were joined from the left to an expression. -/
def chains : Expr -> List (List Expr)
  | .or left right => left.chains ++ [right.chain]
  | expression => [expression.chain]

theorem chain_conjunction {chain : List Expr} (simple : ∀ expression ∈ chain, IsSimple expression) :
    (conjunction chain).chain = chain := by
  match chain with
  | [] | _ :: _ :: _ => rfl
  | [expression] =>
      have one := simple expression List.mem_cons_self
      cases expression <;> first | rfl | cases one

theorem chains_conjunction {chain : List Expr}
    (simple : ∀ expression ∈ chain, IsSimple expression) :
    (conjunction chain).chains = [chain] := by
  match chain with
  | [] | _ :: _ :: _ => rfl
  | [expression] =>
      have one := simple expression List.mem_cons_self
      cases expression <;> first | rfl | cases one

end Expr

/-- The chains of a query: those that its disjunction joins, or all its expressions as one. -/
def Query.chains (query : Query) : List (List Expr) :=
  match query.expressions with
  | [.or left right] => (Expr.or left right).chains
  | expressions => [expressions]

namespace QueryLanguage

theorem chains_foldl_or (tree : Expr) {rest : List (List Expr)}
    (simple : ∀ chain ∈ rest, ∀ expression ∈ chain, IsSimple expression) :
    (rest.foldl (fun left chain => Expr.or left (.conjunction chain)) tree).chains =
      tree.chains ++ rest := by
  induction rest generalizing tree with
  | nil => exact (List.append_nil _).symm
  | cons chain rest inductionHypothesis =>
      have parts := List.forall_mem_cons.mp simple
      rw [List.foldl_cons, inductionHypothesis _ parts.2, Expr.chains,
        Expr.chain_conjunction parts.1, List.append_assoc, List.singleton_append]

theorem exists_foldl_or (tree : Expr) (next : List Expr) (rest : List (List Expr)) :
    ∃ left right,
      (next :: rest).foldl (fun left chain => Expr.or left (.conjunction chain)) tree =
        .or left right := by
  induction rest generalizing tree next with
  | nil => exact ⟨_, _, rfl⟩
  | cons after rest inductionHypothesis =>
      rw [List.foldl_cons]
      exact inductionHypothesis _ after

/-- The chains that are joined to a query can be read off it again. -/
theorem chains_joinChains {chains : List (List Expr)} (someChain : chains ≠ [])
    (simple : ∀ chain ∈ chains, ∀ expression ∈ chain, IsSimple expression) (raw : String) :
    (Query.mk (joinChains chains) raw).chains = chains := by
  match chains, someChain with
  | [chain], _ =>
      unfold Query.chains joinChains
      dsimp only
      split
      · exact (simple _ List.mem_cons_self _ List.mem_cons_self).elim
      · rfl
  | first :: second :: rest, _ =>
      have parts := List.forall_mem_cons.mp simple
      have read := chains_foldl_or (.conjunction first) parts.2
      rcases exists_foldl_or (.conjunction first) second rest with ⟨left, right, isOr⟩
      rw [Expr.chains_conjunction parts.1, isOr] at read
      unfold Query.chains joinChains
      dsimp only
      rw [isOr]
      exact read

theorem mem_marksOf {chains : List (List Expr)} {chain : List Expr} {expression : Expr}
    (inChain : expression ∈ chain) (inChains : chain ∈ chains) :
    some expression ∈ marksOf chains := by
  induction chains with
  | nil => cases inChains
  | cons first rest inductionHypothesis =>
      have marked : some expression ∈ chain.map some := List.mem_map_of_mem inChain
      rcases List.mem_cons.mp inChains with rfl | later
      · cases rest with
        | nil => exact marked
        | cons next others => exact List.mem_append_left _ marked
      · rw [marksOf_cons _ (List.ne_nil_of_mem later)]
        exact List.mem_append_right _ (List.mem_cons_of_mem _ (inductionHypothesis later))

/-- The expressions that are read join no others. -/
theorem ReadsChains.isSimple {text : List Char} {chains : List (List Expr)}
    (reads : ReadsChains text chains) :
    ∀ chain ∈ chains, ∀ expression ∈ chain, IsSimple expression :=
  fun _ inChains _ inChain => reads.spells.isSimple (mem_marksOf inChain inChains)

theorem AreProper.ne_nil {chains : List (List Expr)} (proper : AreProper chains) : chains ≠ [] := by
  rcases proper with rfl | ⟨some, _⟩
  · exact List.cons_ne_nil _ _
  · exact some

/-- A text whose query is known is read as the chains of this query. -/
theorem parse_eq_ok_iff_chains {input : String} {query : Query} :
    parse input = .ok query ↔
      ReadsChains input.toList query.chains ∧ query = ⟨joinChains query.chains, input⟩ := by
  rw [parse_eq_ok]
  constructor
  · rintro ⟨chains, reads, rfl⟩
    rw [chains_joinChains reads.proper.ne_nil reads.isSimple]
    exact ⟨reads, rfl⟩
  · exact fun ⟨reads, same⟩ => ⟨_, reads, same⟩

/-- A text that is read as some chains has a query with these chains. -/
theorem ReadsChains.parse {input : String} {chains : List (List Expr)}
    (reads : ReadsChains input.toList chains) :
    parse input = .ok ⟨joinChains chains, input⟩ ∧
      (Query.mk (joinChains chains) input).chains = chains :=
  ⟨parse_eq_ok.mpr ⟨chains, reads, rfl⟩,
    chains_joinChains reads.proper.ne_nil reads.isSimple input⟩

end QueryLanguage

end Commonplace
