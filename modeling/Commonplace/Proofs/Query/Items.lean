import Commonplace.Proofs.Query.Readers

namespace Commonplace
namespace QueryLanguage

/-!
# What a text spells

A text that can be read spells a list of marks: an expression, or the keyword, for each item.  Texts
that are put side by side, with a blank between them, spell their marks one after another.
-/

/-- The expression of an item; the keyword has none. -/
def Item.expr? : Item -> Option Expr
  | .expr expression => some expression
  | .or _ => none

/-- A text and its marks: an expression, or nothing for the keyword. -/
inductive Spells : List Char -> List (Option Expr) -> Prop where
  | done : Spells [] []
  | blank {head : Char} {tail : List Char} {marks : List (Option Expr)}
      (isBlank : Text.isBlank head = true) (spells : Spells tail marks) :
      Spells (head :: tail) marks
  | keyword {rest : List Char} {marks : List (Option Expr)} (alone : BeginsBlank rest)
      (spells : Spells rest marks) : Spells ('O' :: 'R' :: rest) (none :: marks)
  | expr {start rest : List Char} {expression : Expr} {marks : List (Option Expr)}
      (noKeyword : startsWithOr start = false) (reads : ReadsExpr start expression rest)
      (spells : Spells rest marks) : Spells start (some expression :: marks)

theorem beginsBlank_iff {characters : List Char} :
    BeginsBlank characters ↔ characters.head?.all Text.isBlank = true := by
  cases characters with
  | nil => exact ⟨fun _ => rfl, fun _ _ first => nomatch first⟩
  | cons head tail =>
      constructor
      · exact fun blank => blank head rfl
      · rintro isBlank _ ⟨⟩
        exact isBlank

theorem startsWithOr_eq_true_iff {characters : List Char} :
    startsWithOr characters = true ↔
      ∃ rest, characters = 'O' :: 'R' :: rest ∧ BeginsBlank rest := by
  constructor
  · intro starts
    unfold startsWithOr at starts
    split at starts
    · exact ⟨_, rfl, beginsBlank_iff.mpr starts⟩
    · cases starts
  · rintro ⟨rest, rfl, alone⟩
    exact beginsBlank_iff.mp alone

theorem BeginsBlank.of_append {first second : List Char} (blank : BeginsBlank (first ++ second)) :
    BeginsBlank first := by
  cases first with
  | nil => exact fun _ first => nomatch first
  | cons head tail => exact blank

/-- A blank after a text neither makes a keyword at its start nor takes one away. -/
theorem startsWithOr_append {characters more : List Char} (notEmpty : characters ≠ [])
    (blank : BeginsBlank more) : startsWithOr (characters ++ more) = startsWithOr characters := by
  rw [Bool.eq_iff_iff, startsWithOr_eq_true_iff, startsWithOr_eq_true_iff]
  constructor
  · rintro ⟨rest, same, alone⟩
    match characters, notEmpty with
    | [head], _ =>
        have isBlank := blank 'R' (congrArg List.head? (List.cons.inj same).2)
        exact absurd isBlank (by decide)
    | first :: second :: others, _ =>
        injection same with isO same
        injection same with isR same
        rw [← same] at alone
        exact ⟨others, by rw [isO, isR], alone.of_append⟩
  · rintro ⟨rest, rfl, alone⟩
    exact ⟨rest ++ more, rfl, alone.append blank⟩

/-! ## Scanning -/

theorem BeginsSolid.dropWhile_eq {characters : List Char} (solid : BeginsSolid characters) :
    characters.dropWhile Text.isBlank = characters := by
  rcases solid with ⟨head, tail, rfl, notBlank⟩
  rw [List.dropWhile_cons_of_neg (Bool.eq_false_iff.mp notBlank)]

/-- Whether a text holds nothing but blanks. -/
def IsGap (characters : List Char) : Prop :=
  ∀ character ∈ characters, Text.isBlank character = true

theorem exists_gap (text : List Char) :
    ∃ gap start, text = gap ++ start ∧ IsGap gap ∧ (start = [] ∨ BeginsSolid start) := by
  refine ⟨text.takeWhile Text.isBlank, text.dropWhile Text.isBlank,
    List.takeWhile_append_dropWhile.symm, fun character member => List.mem_takeWhile_imp member, ?_⟩
  cases after : text.dropWhile Text.isBlank with
  | nil => exact .inl rfl
  | cons head tail =>
      have first : head ∈ (text.dropWhile Text.isBlank).head? := by
        rw [after]
        rfl
      exact .inr ⟨head, tail, rfl, Text.stays_of_mem_head?_dropWhile first⟩

theorem scanWithin_gap (budget : Nat) {gap : List Char} (isGap : IsGap gap) (rest : List Char) :
    scanWithin budget (gap ++ rest) = scanWithin budget rest := by
  cases budget with
  | zero => rfl
  | succ budget => simp only [scanWithin, List.dropWhile_append_of_pos isGap]

theorem scanWithin_keyword (budget : Nat) {rest : List Char} (alone : BeginsBlank rest) :
    scanWithin (budget + 1) ('O' :: 'R' :: rest) =
      ⟨.or ('O' :: 'R' :: rest) :: (scanWithin budget rest).items,
        (scanWithin budget rest).failure⟩ := by
  have starts := startsWithOr_eq_true_iff.mpr ⟨rest, rfl, alone⟩
  have solid : BeginsSolid ('O' :: 'R' :: rest) := ⟨'O', _, rfl, by decide⟩
  rw [scanWithin, solid.dropWhile_eq]
  dsimp only
  rw [if_pos starts]
  rfl

theorem scanWithin_solid (budget : Nat) {start : List Char} (solid : BeginsSolid start)
    (noKeyword : startsWithOr start = false) :
    scanWithin (budget + 1) start =
      match readExpr start with
      | .error failure => ⟨[], some failure⟩
      | .ok (expression, rest) =>
          ⟨.expr expression :: (scanWithin budget rest).items,
            (scanWithin budget rest).failure⟩ := by
  rw [scanWithin, solid.dropWhile_eq]
  cases start with
  | nil => exact absurd rfl solid.ne_nil
  | cons head tail =>
      dsimp only
      rw [noKeyword]
      exact if_neg Bool.false_ne_true

/-- A text that spells some marks is scanned into items with these marks. -/
theorem scanWithin_of_spells {text : List Char} {marks : List (Option Expr)}
    (spells : Spells text marks) {budget : Nat} (enough : text.length < budget) :
    (scanWithin budget text).failure = none ∧
      (scanWithin budget text).items.map Item.expr? = marks := by
  induction spells generalizing budget with
  | done =>
      cases budget with
      | zero => exact ⟨rfl, rfl⟩
      | succ budget => exact ⟨rfl, rfl⟩
  | @blank head tail marks isBlank _ inductionHypothesis =>
      rw [← List.singleton_append, scanWithin_gap budget (List.forall_mem_singleton.mpr isBlank)]
      exact inductionHypothesis (Nat.lt_of_succ_lt enough)
  | @keyword rest marks alone _ inductionHypothesis =>
      cases budget with
      | zero => exact absurd enough (Nat.not_lt_zero _)
      | succ budget =>
          have less : rest.length < budget := by
            simp only [List.length_cons] at enough
            omega
          have later := inductionHypothesis less
          rw [scanWithin_keyword budget alone, List.map_cons, later.2]
          exact ⟨later.1, rfl⟩
  | @expr start rest expression marks noKeyword reads _ inductionHypothesis =>
      cases budget with
      | zero => exact absurd enough (Nat.not_lt_zero _)
      | succ budget =>
          have later := inductionHypothesis
            (Nat.lt_of_lt_of_le reads.length_lt (Nat.le_of_lt_succ enough))
          rw [scanWithin_solid budget reads.begins noKeyword,
            (readExpr_eq_ok reads.begins).mpr reads]
          dsimp only
          rw [List.map_cons, later.2]
          exact ⟨later.1, rfl⟩

theorem Spells.gap {gap rest : List Char} {marks : List (Option Expr)} (isGap : IsGap gap)
    (spells : Spells rest marks) : Spells (gap ++ rest) marks := by
  induction gap with
  | nil => exact spells
  | cons head tail inductionHypothesis =>
      have parts := List.forall_mem_cons.mp isGap
      exact .blank parts.1 (inductionHypothesis parts.2)

/-- A text that is scanned without a fault spells the marks of its items. -/
theorem spells_of_scanWithin {budget : Nat} {text : List Char} (enough : text.length < budget)
    (sound : (scanWithin budget text).failure = none) :
    Spells text ((scanWithin budget text).items.map Item.expr?) := by
  induction budget generalizing text with
  | zero => exact absurd enough (Nat.not_lt_zero _)
  | succ budget inductionHypothesis =>
      rcases exists_gap text with ⟨gap, start, rfl, isGap, rfl | solid⟩
      · rw [scanWithin_gap _ isGap]
        exact Spells.done.gap isGap
      · have less : start.length < budget + 1 := by
          rw [List.length_append] at enough
          omega
        rw [scanWithin_gap _ isGap] at sound ⊢
        apply Spells.gap isGap
        cases starts : startsWithOr start with
        | true =>
            rcases startsWithOr_eq_true_iff.mp starts with ⟨rest, rfl, alone⟩
            rw [scanWithin_keyword budget alone] at sound ⊢
            simp only [List.length_cons] at less
            exact .keyword alone (inductionHypothesis (by omega) sound)
        | false =>
            rw [scanWithin_solid budget solid starts] at sound ⊢
            cases read : readExpr start with
            | error failure =>
                rw [read] at sound
                cases sound
            | ok found =>
                rw [read] at sound
                have reads := (readExpr_eq_ok solid).mp read
                have shorter := reads.length_lt
                exact .expr starts reads (inductionHypothesis (by omega) sound)

/-- A text spells the marks of its items when it is scanned without a fault. -/
theorem spells_iff {text : List Char} {marks : List (Option Expr)} :
    Spells text marks ↔
      (scan text).failure = none ∧ (scan text).items.map Item.expr? = marks := by
  constructor
  · exact fun spells => scanWithin_of_spells spells (Nat.lt_succ_self _)
  · rintro ⟨sound, rfl⟩
    exact spells_of_scanWithin (Nat.lt_succ_self _) sound

/-- Texts side by side, of which the second begins with a blank, spell their marks one after
another. -/
theorem Spells.append {first second : List Char} {marks others : List (Option Expr)}
    (spellsFirst : Spells first marks) (blank : BeginsBlank second)
    (spellsSecond : Spells second others) : Spells (first ++ second) (marks ++ others) := by
  induction spellsFirst with
  | done => exact spellsSecond
  | blank isBlank _ inductionHypothesis => exact .blank isBlank inductionHypothesis
  | keyword alone _ inductionHypothesis => exact .keyword (alone.append blank) inductionHypothesis
  | expr noKeyword reads _ inductionHypothesis =>
      refine .expr ?_ (reads.append blank) inductionHypothesis
      rw [startsWithOr_append reads.begins.ne_nil blank]
      exact noKeyword

/-! ## Chains -/

/-- The marks of some chains, with the keyword between them. -/
def marksOf : List (List Expr) -> List (Option Expr)
  | [] => []
  | [chain] => chain.map some
  | chain :: next :: rest => chain.map some ++ none :: marksOf (next :: rest)

theorem marksOf_cons (chain : List Expr) {rest : List (List Expr)} (notEmpty : rest ≠ []) :
    marksOf (chain :: rest) = chain.map some ++ none :: marksOf rest := by
  cases rest with
  | nil => exact absurd rfl notEmpty
  | cons next others => rfl

theorem marksOf_append {first second : List (List Expr)} (firstSome : first ≠ [])
    (secondSome : second ≠ []) :
    marksOf (first ++ second) = marksOf first ++ none :: marksOf second := by
  induction first with
  | nil => exact absurd rfl firstSome
  | cons chain rest inductionHypothesis =>
      by_cases last : rest = []
      · rw [last]
        exact marksOf_cons chain secondSome
      · rw [List.cons_append, marksOf_cons _ (List.append_ne_nil_of_left_ne_nil last _),
          inductionHypothesis last, marksOf_cons chain last, List.append_assoc, List.cons_append]

/-- The marks of chains that are put side by side without a keyword. -/
theorem marksOf_weld (before : List (List Expr)) (last next : List Expr)
    (after : List (List Expr)) :
    marksOf (before ++ [last]) ++ marksOf (next :: after) =
      marksOf (before ++ (last ++ next) :: after) := by
  have welded : marksOf [last] ++ marksOf (next :: after) = marksOf ((last ++ next) :: after) := by
    cases after with
    | nil => exact (List.map_append).symm
    | cons other others =>
        rw [marksOf_cons _ (List.cons_ne_nil _ _), marksOf_cons _ (List.cons_ne_nil _ _),
          List.map_append, List.append_assoc]
        rfl
  by_cases empty : before = []
  · subst empty
    exact welded
  · rw [marksOf_append empty (List.cons_ne_nil _ _), marksOf_append empty (List.cons_ne_nil _ _),
      ← welded, List.append_assoc, List.cons_append]

end QueryLanguage
end Commonplace
