import Commonplace.Proofs.Text.Collapsing
import Commonplace.Text.Paragraph
import Mathlib.Data.List.DropRight

namespace Commonplace
namespace Text

/-!
# Carriage returns

A text whose lines end in a line feed can also be written with a carriage return in front of each of
them.  Its lines without their ends, its words and the text that it collapses to stay the same.
-/

/-- A text with a carriage return in front of every line feed. -/
def withReturns (characters : List Char) : List Char :=
  characters.flatMap fun character => if character = '\n' then ['\r', '\n'] else [character]

theorem withReturns_nil : withReturns [] = [] :=
  rfl

theorem withReturns_break_cons (rest : List Char) :
    withReturns ('\n' :: rest) = '\r' :: '\n' :: withReturns rest :=
  rfl

theorem withReturns_cons {head : Char} (noBreak : head ≠ '\n') (rest : List Char) :
    withReturns (head :: rest) = head :: withReturns rest := by
  rw [withReturns, List.flatMap_cons, if_neg noBreak]
  rfl

theorem withReturns_append (first second : List Char) :
    withReturns (first ++ second) = withReturns first ++ withReturns second :=
  List.flatMap_append

theorem withReturns_flatten (parts : List (List Char)) :
    withReturns parts.flatten = (parts.map withReturns).flatten := by
  induction parts with
  | nil => rfl
  | cons part rest inductionHypothesis =>
      rw [List.flatten_cons, withReturns_append, inductionHypothesis]
      rfl

/-- A text without line feeds stays as it is. -/
theorem withReturns_of_not_mem {characters : List Char} (noBreak : '\n' ∉ characters) :
    withReturns characters = characters := by
  induction characters with
  | nil => rfl
  | cons head tail inductionHypothesis =>
      rw [List.mem_cons, not_or] at noBreak
      rw [withReturns_cons (Ne.symm noBreak.1), inductionHypothesis noBreak.2]

theorem withReturns_eq_nil {characters : List Char} :
    withReturns characters = [] ↔ characters = [] := by
  cases characters with
  | nil => exact ⟨id, id⟩
  | cons head tail =>
      refine ⟨fun empty => ?_, nofun⟩
      by_cases isBreak : head = '\n'
      · rw [isBreak, withReturns_break_cons] at empty
        cases empty
      · rw [withReturns_cons isBreak] at empty
        cases empty

/-- Only a text without line feeds becomes one. -/
theorem withReturns_eq_iff {characters other : List Char} (noBreak : '\n' ∉ other) :
    withReturns characters = other ↔ characters = other := by
  constructor
  · intro same
    have noBreakToo : '\n' ∉ characters := by
      intro member
      have kept : '\n' ∈ withReturns characters :=
        List.mem_flatMap.mpr ⟨'\n', member, List.mem_cons_of_mem _ (List.mem_singleton_self _)⟩
      rw [same] at kept
      exact noBreak kept
    rw [← same, withReturns_of_not_mem noBreakToo]
  · rintro rfl
    exact withReturns_of_not_mem noBreak

/-- No text with carriage returns begins with a line feed. -/
theorem head?_withReturns_ne (characters : List Char) :
    (withReturns characters).head? ≠ some '\n' := by
  cases characters with
  | nil => nofun
  | cons head tail =>
      by_cases isBreak : head = '\n'
      · rw [isBreak, withReturns_break_cons, List.head?_cons]
        decide
      · rw [withReturns_cons isBreak, List.head?_cons, ne_eq, Option.some.injEq]
        exact isBreak

/-- A word without line ends begins a text exactly when it begins the one with returns. -/
theorem startsWith_withReturns {word : List Char}
    (noEnd : ∀ character ∈ word, character ≠ '\r' ∧ character ≠ '\n') (characters : List Char) :
    word <+: withReturns characters ↔ word <+: characters := by
  induction word generalizing characters with
  | nil => exact iff_of_true List.nil_prefix List.nil_prefix
  | cons first rest inductionHypothesis =>
      have stays := noEnd first List.mem_cons_self
      cases characters with
      | nil => rfl
      | cons head tail =>
          by_cases isBreak : head = '\n'
          · rw [isBreak, withReturns_break_cons, List.cons_prefix_cons, List.cons_prefix_cons]
            exact iff_of_false (fun same => stays.1 same.1) fun same => stays.2 same.1
          · rw [withReturns_cons isBreak, List.cons_prefix_cons, List.cons_prefix_cons,
              inductionHypothesis fun character member =>
                noEnd character (List.mem_cons_of_mem first member)]

/-! ## Blanks -/

theorem all_isBlank_withReturns (characters : List Char) :
    (withReturns characters).all isBlank = characters.all isBlank := by
  induction characters with
  | nil => rfl
  | cons head tail inductionHypothesis =>
      by_cases isBreak : head = '\n'
      · rw [isBreak, withReturns_break_cons, List.all_cons, List.all_cons, List.all_cons,
          inductionHypothesis]
        rfl
      · rw [withReturns_cons isBreak, List.all_cons, List.all_cons, inductionHypothesis]

theorem dropWhile_withReturns (characters : List Char) :
    (withReturns characters).dropWhile isBlank = withReturns (characters.dropWhile isBlank) := by
  induction characters with
  | nil => rfl
  | cons head tail inductionHypothesis =>
      by_cases isBreak : head = '\n'
      · rw [isBreak, withReturns_break_cons]
        exact inductionHypothesis
      · rw [withReturns_cons isBreak, List.dropWhile_cons, List.dropWhile_cons]
        split
        · exact inductionHypothesis
        · exact (withReturns_cons isBreak tail).symm

theorem dropEndWhile_withReturns (characters : List Char) :
    dropEndWhile isBlank (withReturns characters) =
      withReturns (dropEndWhile isBlank characters) := by
  change (withReturns characters).rdropWhile isBlank =
    withReturns (characters.rdropWhile isBlank)
  induction characters using List.reverseRecOn with
  | nil => rfl
  | append_singleton start last inductionHypothesis =>
      rw [withReturns_append]
      by_cases isBreak : last = '\n'
      · have two : withReturns ['\n'] = ['\r'] ++ ['\n'] := rfl
        rw [isBreak, two, ← List.append_assoc, List.rdropWhile_concat_pos _ _ _ (by decide),
          List.rdropWhile_concat_pos _ _ _ (by decide),
          List.rdropWhile_concat_pos _ _ _ (by decide), inductionHypothesis]
      · have one : withReturns [last] = [last] := withReturns_cons isBreak []
        rw [one]
        by_cases blank : isBlank last = true
        · rw [List.rdropWhile_concat_pos _ _ _ blank, List.rdropWhile_concat_pos _ _ _ blank,
            inductionHypothesis]
        · rw [List.rdropWhile_concat_neg _ _ _ blank, List.rdropWhile_concat_neg _ _ _ blank,
            withReturns_append, one]

theorem trimChars_withReturns (characters : List Char) :
    trimChars (withReturns characters) = withReturns (trimChars characters) := by
  rw [trimChars, dropEndsWhile, dropWhile_withReturns, dropEndWhile_withReturns]
  rfl

/-! ## Words -/

/-- Carriage returns separate words no more than the line feeds behind them do. -/
theorem words_withReturns (characters : List Char) :
    words (withReturns characters) = words characters := by
  -- What was read before a break is cut off there, so the induction is over any text before.
  have behind : ∀ before, runs isSolid (before ++ withReturns characters) =
      runs isSolid (before ++ characters) := by
    induction characters with
    | nil => exact fun _ => rfl
    | cons head tail inductionHypothesis =>
        intro before
        by_cases isBreak : head = '\n'
        · have atStart := inductionHypothesis []
          rw [List.nil_append, List.nil_append] at atStart
          rw [isBreak, withReturns_break_cons, runs_append_separator before _ rfl,
            runs_append_separator before _ rfl, runs_separator_cons rfl, atStart]
        · rw [withReturns_cons isBreak, List.append_cons, inductionHypothesis, ← List.append_cons]
  exact behind []

theorem collapseChars_withReturns (characters : List Char) :
    collapseChars (withReturns characters) = collapseChars characters := by
  rw [collapseChars, words_withReturns]
  rfl

/-! ## Lines -/

theorem linesKept_cons {head : Char} (noBreak : head ≠ '\n') (rest : List Char) :
    linesKept (head :: rest) =
      match linesKept rest with
      | [] => [[head]]
      | line :: lines => (head :: line) :: lines :=
  linesKept.eq_3 head rest noBreak

theorem linesKept_withReturns (characters : List Char) :
    linesKept (withReturns characters) = (linesKept characters).map withReturns := by
  induction characters with
  | nil => rfl
  | cons head tail inductionHypothesis =>
      by_cases isBreak : head = '\n'
      · rw [isBreak, withReturns_break_cons, linesKept_cons (by decide), linesKept, linesKept,
          inductionHypothesis]
        rfl
      · rw [withReturns_cons isBreak, linesKept_cons isBreak, linesKept_cons isBreak,
          inductionHypothesis]
        cases linesKept tail with
        | nil => rw [List.map_nil, List.map_singleton, withReturns_cons isBreak, withReturns_nil]
        | cons line lines =>
            rw [List.map_cons, List.map_cons, withReturns_cons isBreak]

theorem flatten_linesKept (characters : List Char) :
    (linesKept characters).flatten = characters := by
  induction characters with
  | nil => rfl
  | cons head tail inductionHypothesis =>
      by_cases isBreak : head = '\n'
      · rw [isBreak, linesKept, List.flatten_cons, inductionHypothesis]
        rfl
      · rw [linesKept_cons isBreak]
        cases whole : linesKept tail with
        | nil =>
            rw [whole] at inductionHypothesis
            rw [← inductionHypothesis]
            rfl
        | cons line lines =>
            rw [whole] at inductionHypothesis
            rw [← inductionHypothesis]
            rfl

/-- A line has no line feed but the one that ends it. -/
theorem exists_of_mem_linesKept {characters line : List Char}
    (member : line ∈ linesKept characters) :
    ∃ start, '\n' ∉ start ∧ (line = start ∨ line = start ++ ['\n']) := by
  induction characters generalizing line with
  | nil => cases member
  | cons head tail inductionHypothesis =>
      by_cases isBreak : head = '\n'
      · rw [isBreak, linesKept] at member
        rcases List.mem_cons.mp member with rfl | later
        · exact ⟨[], List.not_mem_nil, .inr rfl⟩
        · exact inductionHypothesis later
      · rw [linesKept_cons isBreak] at member
        cases whole : linesKept tail with
        | nil =>
            rw [whole, List.mem_singleton] at member
            have alone : '\n' ∉ [head] := fun inHead =>
              isBreak (List.mem_singleton.mp inHead).symm
            exact ⟨[head], alone, .inl member⟩
        | cons first others =>
            rw [whole] at member inductionHypothesis
            rcases List.mem_cons.mp member with rfl | later
            · rcases inductionHypothesis List.mem_cons_self with ⟨start, noBreak, ending⟩
              refine ⟨head :: start, ?_, ?_⟩
              · rw [List.mem_cons, not_or]
                exact ⟨Ne.symm isBreak, noBreak⟩
              · rcases ending with rfl | rfl
                · exact .inl rfl
                · exact .inr rfl
            · exact inductionHypothesis (List.mem_cons_of_mem first later)

theorem withoutLineEnd_break {start : List Char} (noReturn : '\r' ∉ start) :
    withoutLineEnd (start ++ ['\n']) = start := by
  have reversed : (start ++ ['\n']).reverse = '\n' :: start.reverse := List.reverse_concat
  rw [withoutLineEnd, reversed]
  split
  · rename_i kept same
    have isReturn : '\r' ∈ start.reverse := by
      rw [(List.cons.inj same).2]
      exact List.mem_cons_self
    exact absurd (List.mem_reverse.mp isReturn) noReturn
  · rename_i kept _ same
    rw [← (List.cons.inj same).2, List.reverse_reverse]
  · rename_i other
    exact absurd rfl (other start.reverse)

theorem withoutLineEnd_return_break (start : List Char) :
    withoutLineEnd (start ++ ['\r', '\n']) = start := by
  rw [withoutLineEnd, List.reverse_append]
  exact List.reverse_reverse start

/-- The lines of a text without carriage returns stay when they are put in. -/
theorem lines_withReturns {characters : List Char} (noReturn : '\r' ∉ characters) :
    lines (withReturns characters) = lines characters := by
  rw [lines, lines, linesKept_withReturns, List.map_map, List.map_inj_left]
  intro line member
  rcases exists_of_mem_linesKept member with ⟨start, noBreak, ending⟩
  have noReturnInLine : '\r' ∉ line := fun inLine => by
    rw [← flatten_linesKept characters] at noReturn
    exact noReturn (List.mem_flatten.mpr ⟨line, member, inLine⟩)
  change withoutLineEnd (withReturns line) = withoutLineEnd line
  rcases ending with rfl | rfl
  · rw [withReturns_of_not_mem noBreak]
  · have noReturnAtStart : '\r' ∉ start := fun inStart =>
      noReturnInLine (List.mem_append_left _ inStart)
    rw [withReturns_append, withReturns_of_not_mem noBreak, withoutLineEnd_break noReturnAtStart]
    exact withoutLineEnd_return_break start

end Text
end Commonplace
