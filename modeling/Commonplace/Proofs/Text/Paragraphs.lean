import Commonplace.Proofs.Text.LineEnds

namespace Commonplace
namespace Text

/-!
# Paragraphs

A text consists of blocks: its paragraphs that are not blank.  The first of them that is no heading
is shown for the whole text.  With carriage returns in front of its line feeds no paragraph ends
before the text does, so the whole text is one block.
-/

theorem paragraphsFrom_cons {head : Char} {rest : List Char}
    (apart : head = '\n' → rest.head? ≠ some '\n') (current : List Char) :
    paragraphsFrom current (head :: rest) = paragraphsFrom (head :: current) rest := by
  rw [paragraphsFrom]
  rintro more rfl rfl
  exact apart rfl rfl

/-- With carriage returns, no paragraph ends before the text does. -/
theorem paragraphs_withReturns (characters : List Char) :
    paragraphs (withReturns characters) = [withReturns characters] := by
  have behind : ∀ current, paragraphsFrom current (withReturns characters) =
      [current.reverse ++ withReturns characters] := by
    induction characters with
    | nil => exact fun current => by rw [withReturns_nil, paragraphsFrom, List.append_nil]
    | cons head tail inductionHypothesis =>
        intro current
        by_cases isBreak : head = '\n'
        · have returnStays : '\r' = '\n' → ('\n' :: withReturns tail).head? ≠ some '\n' :=
            fun same => absurd same (by decide)
          rw [isBreak, withReturns_break_cons, paragraphsFrom_cons returnStays,
            paragraphsFrom_cons fun _ => head?_withReturns_ne tail, inductionHypothesis]
          simp
        · rw [withReturns_cons isBreak, paragraphsFrom_cons fun same => absurd same isBreak,
            inductionHypothesis]
          simp
  exact behind []

/-- The words of a text are those of its paragraphs, one after the other. -/
theorem words_paragraphs (characters : List Char) :
    words characters = (paragraphs characters).flatMap words := by
  have behind : ∀ current, runs isSolid (current.reverse ++ characters) =
      (paragraphsFrom current characters).flatMap words := by
    intro current
    fun_induction paragraphsFrom current characters with
    | case1 current =>
        rw [List.append_nil, List.flatMap_singleton]
        rfl
    | case2 current rest inductionHypothesis =>
        rw [runs_append_separator _ _ rfl, runs_separator_cons rfl, List.flatMap_cons,
          ← inductionHypothesis]
        rfl
    | case3 current head rest apart inductionHypothesis =>
        rw [← inductionHypothesis, List.reverse_cons, ← List.append_cons]
  exact behind []

/-- The paragraphs of a text that are not blank, without the blanks at their ends. -/
def blocks (characters : List Char) : List (List Char) :=
  ((paragraphs characters).map trimChars).filter fun paragraph => !paragraph.isEmpty

/-- Whether a paragraph is headed by a number sign. -/
def isHeading (paragraph : List Char) : Bool :=
  paragraph.head? == some '#'

theorem firstParagraphChars_eq (characters : List Char) :
    firstParagraphChars characters =
      ((blocks characters).find? fun paragraph => !isHeading paragraph).getD [] := by
  rw [blocks, List.find?_filter, firstParagraphChars]
  congr 2
  funext paragraph
  rw [Bool.decide_and, Bool.decide_eq_true, Bool.decide_eq_true]
  rfl

theorem words_blocks (characters : List Char) :
    words characters = (blocks characters).flatMap words := by
  rw [words_paragraphs, blocks]
  induction paragraphs characters with
  | nil => rfl
  | cons paragraph rest inductionHypothesis =>
      rw [List.flatMap_cons, inductionHypothesis, List.map_cons, List.filter_cons]
      split
      · rw [List.flatMap_cons, words_trimChars]
      · rename_i blank
        have empty : trimChars paragraph = [] := by simpa using blank
        rw [← words_trimChars, empty, words_nil, List.nil_append]

theorem isTrimmed_of_mem_blocks {characters block : List Char}
    (member : block ∈ blocks characters) : IsTrimmed block ∧ block ≠ [] := by
  rcases List.mem_filter.mp member with ⟨isTrim, notEmpty⟩
  rcases List.mem_map.mp isTrim with ⟨paragraph, _, rfl⟩
  exact ⟨isTrimmed_trimChars paragraph, by simpa using notEmpty⟩

theorem words_ne_nil_of_mem_blocks {characters block : List Char}
    (member : block ∈ blocks characters) : words block ≠ [] := by
  rcases isTrimmed_of_mem_blocks member with ⟨trimmed, notEmpty⟩
  rw [ne_eq, words_eq_nil, trimChars_of_isTrimmed trimmed]
  exact notEmpty

/-! ## The first paragraph -/

/-- What a text whose paragraphs are not told apart collapses to, unless it begins as a heading. -/
def leadAsOne (characters : List Char) : List Char :=
  if isHeading (trimChars characters) then [] else collapseChars characters

theorem collapseChars_firstParagraphChars_withReturns (characters : List Char) :
    collapseChars (firstParagraphChars (withReturns characters)) = leadAsOne characters := by
  have sameHead : isHeading (withReturns (trimChars characters)) =
      isHeading (trimChars characters) := by
    cases trimChars characters with
    | nil => rfl
    | cons head tail =>
        by_cases isBreak : head = '\n'
        · rw [isBreak]
          rfl
        · rw [withReturns_cons isBreak]
          rfl
  rw [firstParagraphChars_eq, blocks, paragraphs_withReturns, List.map_singleton,
    trimChars_withReturns, leadAsOne]
  by_cases blank : trimChars characters = []
  · have none : collapseChars characters = [] := by
      rw [collapseChars, words_eq_nil.mpr blank]
      rfl
    rw [none, blank]
    rfl
  · have notEmpty : (!(withReturns (trimChars characters)).isEmpty) = true := by
      simpa [withReturns_eq_nil] using blank
    have stays : [withReturns (trimChars characters)].filter (fun paragraph =>
        !paragraph.isEmpty) = [withReturns (trimChars characters)] :=
      List.filter_cons_of_pos notEmpty
    rw [stays, List.find?_cons, sameHead]
    cases isHeading (trimChars characters) with
    | true => rfl
    | false =>
        have same : collapseChars (trimChars characters) = collapseChars characters :=
          collapseChars_eq_iff.mpr (words_trimChars characters)
        exact (collapseChars_withReturns _).trans same

/-- The first block of a text is a heading exactly when the text begins as one. -/
theorem isHeading_trimChars {characters block : List Char} {others : List (List Char)}
    (parts : blocks characters = block :: others) :
    isHeading (trimChars characters) = isHeading block := by
  have member : block ∈ blocks characters := by
    rw [parts]
    exact List.mem_cons_self
  have own := head?_trimChars block
  rw [trimChars_of_isTrimmed (isTrimmed_of_mem_blocks member).1] at own
  rw [isHeading, isHeading, head?_trimChars, own, words_blocks, parts, List.flatMap_cons,
    List.head?_append_of_ne_nil _ (words_ne_nil_of_mem_blocks member)]

/-- Only a text of headings has nothing for its first paragraph. -/
theorem collapseChars_firstParagraphChars_eq_nil {characters : List Char} :
    collapseChars (firstParagraphChars characters) = [] ↔
      ∀ block ∈ blocks characters, isHeading block = true := by
  rw [firstParagraphChars_eq]
  cases found : (blocks characters).find? fun block => !isHeading block with
  | none =>
      refine iff_of_true rfl fun block member => ?_
      simpa using List.find?_eq_none.mp found block member
  | some block =>
      have member := List.mem_of_find?_eq_some found
      have isText : isHeading block = false := by simpa using List.find?_some found
      refine iff_of_false (fun empty => ?_) fun all => ?_
      · have noWords : words block = words [] := collapseChars_eq_iff.mp empty
        exact words_ne_nil_of_mem_blocks member noWords
      · rw [all block member] at isText
        cases isText

/-- Whether paragraphs are told apart makes no difference when all of them are headings, or when
there is only one.  In all other cases it does. -/
theorem leadAsOne_eq_iff (characters : List Char) :
    leadAsOne characters = collapseChars (firstParagraphChars characters) ↔
      (∀ block ∈ blocks characters, isHeading block = true) ∨
        (blocks characters).length ≤ 1 := by
  have whole := words_blocks characters
  cases parts : blocks characters with
  | nil =>
      rw [parts] at whole
      rw [leadAsOne, words_eq_nil.mp whole, firstParagraphChars_eq, parts, collapseChars, whole]
      exact iff_of_true rfl (.inr (Nat.zero_le 1))
  | cons block others =>
      rw [leadAsOne, isHeading_trimChars parts]
      cases heads : isHeading block with
      | true =>
          -- A single block is this heading, so the first alternative covers the second.
          rw [if_pos rfl, eq_comm, collapseChars_firstParagraphChars_eq_nil, parts]
          refine ⟨.inl, fun either => either.elim id fun single => ?_⟩
          cases others with
          | nil => exact List.forall_mem_singleton.mpr heads
          | cons next more => simp at single
      | false =>
          have notAll : ¬∀ part ∈ block :: others, isHeading part = true := fun all => by
            rw [all block List.mem_cons_self] at heads
            cases heads
          rw [if_neg Bool.false_ne_true, firstParagraphChars_eq, parts,
            List.find?_cons_of_pos (by rw [heads]; rfl), Option.getD_some, collapseChars_eq_iff,
            whole, parts, List.flatMap_cons, List.append_right_eq_self, or_iff_right notAll]
          cases others with
          | nil => exact iff_of_true rfl (le_refl 1)
          | cons next more =>
              have later : next ∈ blocks characters := by simp [parts]
              rw [List.flatMap_cons]
              refine iff_of_false (fun empty => ?_) (by simp)
              exact words_ne_nil_of_mem_blocks later (List.append_eq_nil_iff.mp empty).1

end Text
end Commonplace
