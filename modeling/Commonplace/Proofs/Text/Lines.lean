import Commonplace.Proofs.Text.LineEnds
import Mathlib.Data.List.SplitBy

namespace Commonplace
namespace Text

/-!
# Lines

A line is a part of a text that begins where the text or another line begins, and that reaches up to
the next line feed, or up to the end of the text.  The lines of a text are found by splitting it
behind every line feed, so that a text can be taken apart at any line and be put together again.
-/

/-- Whether a text ends where a line does: it is empty, or a line feed is the last of it. -/
def EndsLine (text : List Char) : Prop :=
  ∀ last ∈ text.getLast?, last = '\n'

/-- Whether a text is one line of a longer one, between what stands before and after it. -/
structure IsLineBetween (before line after : List Char) : Prop where
  notEmpty : line ≠ []
  unbroken : '\n' ∉ line.dropLast
  begins : EndsLine before
  ends : EndsLine line ∨ after = []

/-- Whether a text has some line. -/
def HasLine (text line : List Char) : Prop :=
  ∃ before after, text = before ++ (line ++ after) ∧ IsLineBetween before line after

theorem endsLine_iff {line : List Char} (notEmpty : line ≠ []) :
    EndsLine line ↔ line.getLast notEmpty = '\n' := by
  rw [EndsLine, List.getLast?_eq_getLast_of_ne_nil notEmpty]
  refine ⟨fun ends => ends _ rfl, ?_⟩
  rintro isBreak _ ⟨⟩
  exact isBreak

theorem EndsLine.append {line : List Char} (ends : EndsLine line) (notEmpty : line ≠ [])
    (before : List Char) : EndsLine (before ++ line) := by
  rw [EndsLine, List.getLast?_append_of_ne_nil _ notEmpty]
  exact ends

/-! ## Splitting behind line feeds -/

/-- Whether the character after one is in the same line. -/
def staysInLine (character _next : Char) : Bool :=
  character != '\n'

theorem staysInLine_eq_false_iff {character next : Char} :
    staysInLine character next = false ↔ character = '\n' :=
  bne_eq_false_iff_eq

theorem isChain_staysInLine_iff (line : List Char) :
    (line.IsChain fun character next => staysInLine character next = true) ↔
      '\n' ∉ line.dropLast := by
  induction line with
  | nil => exact iff_of_true .nil List.not_mem_nil
  | cons head tail inductionHypothesis =>
      cases tail with
      | nil => exact iff_of_true (.singleton head) List.not_mem_nil
      | cons next rest =>
          rw [List.isChain_cons_cons, inductionHypothesis, List.dropLast_cons_cons, List.mem_cons,
            not_or, staysInLine, bne_iff_ne]
          exact and_congr_left fun _ => ne_comm

/-- A character in front of a text belongs to its first line, unless it is a line feed. -/
theorem splitBy_cons {head : Char} {tail line : List Char} {lines : List (List Char)}
    (noBreak : head ≠ '\n') (split : tail.splitBy staysInLine = line :: lines) :
    (head :: tail).splitBy staysInLine = (head :: line) :: lines := by
  rcases List.splitBy_eq_iff.mp split with ⟨rfl, full, chains, between⟩
  rw [List.mem_cons, not_or] at full
  rw [List.forall_mem_cons] at chains
  rw [List.isChain_cons] at between
  have stays : staysInLine head = fun _ => true := funext fun _ => bne_iff_ne.mpr noBreak
  rw [List.splitBy_eq_iff]
  refine ⟨rfl, ?_, ?_, ?_⟩
  · rw [List.mem_cons, not_or]
    exact ⟨(List.cons_ne_nil head line).symm, full.2⟩
  · rw [List.forall_mem_cons, List.isChain_cons, stays]
    exact ⟨⟨fun _ _ => rfl, chains.1⟩, chains.2⟩
  · refine List.isChain_cons.mpr ⟨fun next isNext => ?_, between.2⟩
    rcases between.1 next isNext with ⟨notEmpty, nextNotEmpty, cut⟩
    refine ⟨List.cons_ne_nil head line, nextNotEmpty, ?_⟩
    rw [List.getLast_cons notEmpty]
    exact cut

theorem linesKept_eq_splitBy (text : List Char) : linesKept text = text.splitBy staysInLine := by
  induction text with
  | nil => rfl
  | cons head tail inductionHypothesis =>
      by_cases isBreak : head = '\n'
      · have cut : ∀ last ∈ ['\n'].getLast?, ∀ first ∈ tail.head?,
            staysInLine last first = false := by
          rintro _ ⟨⟩ first _
          rfl
        rw [isBreak, linesKept, inductionHypothesis]
        exact (List.splitBy_append cut).symm
      · rw [linesKept_cons isBreak, inductionHypothesis]
        cases split : tail.splitBy staysInLine with
        | nil =>
            rw [List.splitBy_eq_nil.mp split]
            rfl
        | cons line lines => exact (splitBy_cons isBreak split).symm

/-- The lines of a text that is put together where a line ends. -/
theorem linesKept_append {before : List Char} (ends : EndsLine before) (after : List Char) :
    linesKept (before ++ after) = linesKept before ++ linesKept after := by
  rw [linesKept_eq_splitBy, linesKept_eq_splitBy, linesKept_eq_splitBy]
  exact List.splitBy_append fun last isLast _ _ => staysInLine_eq_false_iff.mpr (ends last isLast)

theorem IsLineBetween.linesKept_eq {before line after : List Char}
    (isLine : IsLineBetween before line after) :
    linesKept (before ++ (line ++ after)) = linesKept before ++ line :: linesKept after := by
  have alone : linesKept line = [line] := by
    rw [linesKept_eq_splitBy]
    exact List.splitBy_of_isChain isLine.notEmpty
      ((isChain_staysInLine_iff line).mpr isLine.unbroken)
  have rest : linesKept (line ++ after) = line :: linesKept after := by
    rcases isLine.ends with ends | rfl
    · rw [linesKept_append ends, alone]
      rfl
    · rw [List.append_nil, alone]
      rfl
  rw [linesKept_append isLine.begins, rest]

/-- A text can be taken apart at each of its lines. -/
theorem isLineBetween_of_linesKept {text line : List Char} {before after : List (List Char)}
    (lines : linesKept text = before ++ line :: after) :
    IsLineBetween before.flatten line after.flatten ∧ linesKept before.flatten = before ∧
      linesKept after.flatten = after := by
  rw [linesKept_eq_splitBy] at lines
  rcases List.splitBy_eq_iff.mp lines with ⟨_, full, chains, between⟩
  rw [List.mem_append, List.mem_cons, not_or, not_or] at full
  rw [List.forall_mem_append, List.forall_mem_cons] at chains
  rw [List.isChain_append, List.isChain_cons] at between
  rcases between with ⟨betweenBefore, ⟨following, betweenAfter⟩, seam⟩
  refine ⟨⟨?_, ?_, ?_, ?_⟩, ?_, ?_⟩
  · exact fun empty => full.2.1 empty.symm
  · exact (isChain_staysInLine_iff line).mp chains.2.1
  · rcases List.eq_nil_or_concat' before with rfl | ⟨start, final, rfl⟩
    · exact fun _ isLast => nomatch isLast
    · rcases seam final List.getLast?_concat line rfl with ⟨notEmpty, _, cut⟩
      have ends := (endsLine_iff notEmpty).mpr (staysInLine_eq_false_iff.mp cut)
      rw [List.flatten_append, List.flatten_singleton]
      exact ends.append notEmpty start.flatten
  · cases after with
    | nil => exact .inr rfl
    | cons next rest =>
        rcases following next rfl with ⟨notEmpty, _, cut⟩
        exact .inl ((endsLine_iff notEmpty).mpr (staysInLine_eq_false_iff.mp cut))
  · rw [linesKept_eq_splitBy]
    exact List.splitBy_flatten full.1 chains.1 betweenBefore
  · rw [linesKept_eq_splitBy]
    exact List.splitBy_flatten full.2.2 chains.2.2 betweenAfter

theorem mem_linesKept_iff (text line : List Char) : line ∈ linesKept text ↔ HasLine text line := by
  constructor
  · intro member
    rcases List.append_of_mem member with ⟨before, after, lines⟩
    refine ⟨before.flatten, after.flatten, ?_, (isLineBetween_of_linesKept lines).1⟩
    rw [← flatten_linesKept text, lines, List.flatten_append, List.flatten_cons]
  · rintro ⟨before, after, rfl, isLine⟩
    rw [isLine.linesKept_eq]
    exact List.mem_append_right _ List.mem_cons_self

end Text
end Commonplace
