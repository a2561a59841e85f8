import Commonplace.Note.Frontmatter
import Commonplace.Proofs.Text.Bytes
import Commonplace.Proofs.Text.Lines

namespace Commonplace
namespace Frontmatter

/-!
# Where a header ends

A text has a header when it begins with an opening line and some later line closes it.  The first
such line ends the header.  So the opening line, the header, the closing line and the body make up
the text, and nothing in the header closes it.  No other parts of the text are of this kind.
-/

open Text

/-- The lines that open a header. -/
def openings : List (List Char) :=
  [['-', '-', '-', '\n'], ['-', '-', '-', '\r', '\n']]

/-- The marks that close a header. -/
def closingMarks : List (List Char) :=
  [['-', '-', '-'], ['.', '.', '.']]

/-- Whether a text is an opening line and some rest. -/
def Opens (text rest : List Char) : Prop :=
  ∃ opening ∈ openings, text = opening ++ rest

/-- Whether a line closes a header: it is one of the marks, with any blanks behind it. -/
def Closes (line : List Char) : Prop :=
  ∃ mark ∈ closingMarks, ∃ blanks : List Char,
    (∀ character ∈ blanks, isBlank character = true) ∧ line = mark ++ blanks

/-- Whether a text is a header, the line that closes it and a body. -/
def IsClosed (text header body : List Char) : Prop :=
  ∃ closing, text = header ++ (closing ++ body) ∧ IsLineBetween header closing body ∧
    Closes closing ∧ ∀ line, HasLine header line → ¬Closes line

/-! ## Openings and closing lines -/

theorem afterOpening_eq_some_iff {content rest : List Char} :
    afterOpening content = some rest ↔ Opens content rest := by
  constructor
  · intro opened
    unfold afterOpening at opened
    split at opened
    · cases opened
      exact ⟨_, List.mem_cons_self, rfl⟩
    · cases opened
      exact ⟨_, List.mem_cons_of_mem _ List.mem_cons_self, rfl⟩
    · cases opened
  · rintro ⟨opening, listed, rfl⟩
    rcases List.mem_cons.mp listed with rfl | other
    · rfl
    · rw [List.mem_singleton.mp other]
      rfl

theorem isClosing_iff (line : List Char) : isClosing line = true ↔ Closes line := by
  have marks : isClosing line = true ↔ line.rdropWhile isBlank ∈ closingMarks := by
    unfold isClosing
    rw [closingMarks, List.mem_pair, Bool.or_eq_true, beq_iff_eq, beq_iff_eq]
    rfl
  rw [marks]
  constructor
  · intro isMark
    exact ⟨_, isMark, line.rtakeWhile isBlank, fun _ => List.mem_rtakeWhile_imp,
      List.rdropWhile_append_rtakeWhile.symm⟩
  · rintro ⟨mark, listed, blanks, areBlank, rfl⟩
    have solid : ∀ mark ∈ closingMarks, mark.rdropWhile isBlank = mark := by decide
    have dropped : (mark ++ blanks).rdropWhile isBlank = mark.rdropWhile isBlank := by
      rw [List.rdropWhile, List.reverse_append, List.dropWhile_append_of_pos]
      · rfl
      · exact fun character member => areBlank character (List.mem_reverse.mp member)
    rw [dropped, solid mark listed]
    exact listed

/-! ## The first closing line

The header and the body are cut out of the text at bytes.  These bytes are the first and the last
of a line, so both are made of whole lines. -/

/-- The lines before the first one that closes a header and the lines after it, put together. -/
def cutAtClosing : List (List Char) -> Option (List Char × List Char)
  | [] => none
  | line :: lines =>
      if isClosing line then some ([], lines.flatten)
      else (cutAtClosing lines).map fun parts => (line ++ parts.1, parts.2)

/-- The bytes where the closing line begins and ends lie between characters, also when other text
was passed before. -/
theorem closing?_spec (passed : List Char) (lines : List (List Char)) :
    match cutAtClosing lines with
    | none => closing? (byteSize passed) lines = none
    | some (header, body) => ∃ closing, lines.flatten = header ++ (closing ++ body) ∧
        closing? (byteSize passed) lines =
          some (byteSize (passed ++ header), byteSize (passed ++ header ++ closing)) := by
  induction lines generalizing passed with
  | nil => rfl
  | cons line lines inductionHypothesis =>
      have later := inductionHypothesis (passed ++ line)
      rw [cutAtClosing, closing?, ← byteSize_append]
      by_cases closes : isClosing line = true
      · rw [if_pos closes, if_pos closes]
        exact ⟨line, rfl, by rw [List.append_nil]⟩
      · rw [if_neg closes, if_neg closes]
        cases cut : cutAtClosing lines with
        | none =>
            rw [cut] at later
            exact later
        | some parts =>
            rw [cut] at later
            rcases later with ⟨closing, whole, found⟩
            refine ⟨closing, ?_, ?_⟩
            · rw [List.flatten_cons, whole, List.append_assoc]
            · rw [found, List.append_assoc]

/-- Cutting a text at bytes takes it apart into whole lines. -/
theorem cut?_eq (rest : List Char) : cut? rest = cutAtClosing (linesKept rest) := by
  have spec := closing?_spec [] (linesKept rest)
  rw [cut?]
  cases cut : cutAtClosing (linesKept rest) with
  | none =>
      rw [cut] at spec
      rw [show closing? 0 (linesKept rest) = none from spec]
      rfl
  | some parts =>
      rw [cut] at spec
      rcases spec with ⟨closing, whole, found⟩
      rw [flatten_linesKept] at whole
      have atStart : splitAtByte? (byteSize parts.1) rest = some (parts.1, closing ++ parts.2) :=
        splitAtByte?_eq_some_iff.mpr ⟨whole, rfl⟩
      have atStop : splitAtByte? (byteSize (parts.1 ++ closing)) rest =
          some (parts.1 ++ closing, parts.2) :=
        splitAtByte?_eq_some_iff.mpr ⟨by rw [whole, List.append_assoc], rfl⟩
      rw [show closing? 0 (linesKept rest) =
        some (byteSize parts.1, byteSize (parts.1 ++ closing)) from found, Option.bind_eq_bind]
      dsimp only [Option.bind_some]
      rw [atStart, atStop]
      rfl

theorem cutAtClosing_eq_none_iff (lines : List (List Char)) :
    cutAtClosing lines = none ↔ ∀ line ∈ lines, ¬isClosing line = true := by
  induction lines with
  | nil => exact iff_of_true rfl (List.forall_mem_nil _)
  | cons line lines inductionHypothesis =>
      rw [cutAtClosing, List.forall_mem_cons, ← inductionHypothesis]
      split
      · rename_i closes
        exact iff_of_false nofun fun parts => parts.1 closes
      · rename_i goesOn
        rw [Option.map_eq_none_iff, and_iff_right goesOn]

theorem cutAtClosing_eq_some_iff {lines : List (List Char)} {header body : List Char} :
    cutAtClosing lines = some (header, body) ↔
      ∃ before closing after, lines = before ++ closing :: after ∧ isClosing closing = true ∧
        (∀ line ∈ before, ¬isClosing line = true) ∧ before.flatten = header ∧
          after.flatten = body := by
  induction lines generalizing header with
  | nil =>
      refine iff_of_false nofun ?_
      rintro ⟨before, closing, after, none, _⟩
      exact absurd none.symm (List.append_ne_nil_of_right_ne_nil before (List.cons_ne_nil _ _))
  | cons line lines inductionHypothesis =>
      rw [cutAtClosing]
      split
      · rename_i closes
        constructor
        · rintro ⟨⟩
          exact ⟨[], line, lines, rfl, closes, List.forall_mem_nil _, rfl, rfl⟩
        · rintro ⟨before, closing, after, same, _, noneBefore, rfl, rfl⟩
          cases before with
          | nil =>
              rw [(List.cons.inj same).2]
              rfl
          | cons first others =>
              rw [(List.cons.inj same).1] at closes
              exact absurd closes (noneBefore first List.mem_cons_self)
      · rename_i goesOn
        rw [Option.map_eq_some_iff]
        constructor
        · rintro ⟨⟨start, _⟩, found, ⟨⟩⟩
          rcases inductionHypothesis.mp found with
            ⟨before, closing, after, rfl, closes, noneBefore, rfl, rfl⟩
          exact ⟨line :: before, closing, after, rfl, closes,
            List.forall_mem_cons.mpr ⟨goesOn, noneBefore⟩, rfl, rfl⟩
        · rintro ⟨before, closing, after, same, closes, noneBefore, rfl, rfl⟩
          cases before with
          | nil =>
              rw [(List.cons.inj same).1] at goesOn
              exact absurd closes goesOn
          | cons first others =>
              rw [List.forall_mem_cons] at noneBefore
              refine ⟨(others.flatten, after.flatten), ?_, ?_⟩
              · exact inductionHypothesis.mpr ⟨others, closing, after, (List.cons.inj same).2,
                  closes, noneBefore.2, rfl, rfl⟩
              · rw [(List.cons.inj same).1]
                rfl

/-- The lines of a text are cut where its header is closed. -/
theorem cutAtClosing_linesKept_iff {text header body : List Char} :
    cutAtClosing (linesKept text) = some (header, body) ↔ IsClosed text header body := by
  rw [cutAtClosing_eq_some_iff]
  constructor
  · rintro ⟨before, closing, after, lines, closes, noneBefore, rfl, rfl⟩
    rcases isLineBetween_of_linesKept lines with ⟨isLine, sameBefore, _⟩
    refine ⟨closing, ?_, isLine, (isClosing_iff closing).mp closes, ?_⟩
    · rw [← flatten_linesKept text, lines, List.flatten_append, List.flatten_cons]
    · intro line hasLine
      rw [← mem_linesKept_iff, sameBefore] at hasLine
      rw [← isClosing_iff]
      exact noneBefore line hasLine
  · rintro ⟨closing, rfl, isLine, closes, noneBefore⟩
    refine ⟨linesKept header, closing, linesKept body, isLine.linesKept_eq,
      (isClosing_iff closing).mpr closes, ?_, flatten_linesKept header, flatten_linesKept body⟩
    intro line member
    rw [isClosing_iff]
    exact noneBefore line ((mem_linesKept_iff header line).mp member)

theorem cutAtClosing_linesKept_eq_none_iff (text : List Char) :
    cutAtClosing (linesKept text) = none ↔ ∀ line, HasLine text line → ¬Closes line := by
  simp only [cutAtClosing_eq_none_iff, mem_linesKept_iff, isClosing_iff]

/-! ## Splitting a text -/

/-- The header and the body of a text that has a header. -/
def parts? (content : List Char) : Option (List Char × List Char) :=
  (afterOpening content).bind fun rest => cutAtClosing (linesKept rest)

theorem parts?_eq_some_iff {content header body : List Char} :
    parts? content = some (header, body) ↔
      ∃ rest, Opens content rest ∧ IsClosed rest header body := by
  simp only [parts?, Option.bind_eq_some_iff, afterOpening_eq_some_iff, cutAtClosing_linesKept_iff]

theorem parts?_eq_none_iff (content : List Char) :
    parts? content = none ↔
      ∀ rest, Opens content rest → ∀ line, HasLine rest line → ¬Closes line := by
  simp only [parts?, Option.bind_eq_none_iff, afterOpening_eq_some_iff,
    cutAtClosing_linesKept_eq_none_iff]

theorem split_eq (content : List Char) :
    split content =
      match parts? content with
      | some (header, body) => (some header, body)
      | none => (none, content) := by
  unfold split parts?
  simp only [cut?_eq]
  cases afterOpening content <;> rfl

/-- A text stays whole just when it has no opening line or nothing behind it closes a header.
Otherwise it is its opening line, the header, the first line that closes it, and the body. -/
theorem header_is_split_off (content : List Char) :
    (split content = (none, content) ∨
      ∃ header body, split content = (some header, body)) ∧
    (split content = (none, content) ↔
      ∀ rest, Opens content rest → ∀ line, HasLine rest line → ¬Closes line) ∧
    ∀ header body, split content = (some header, body) ↔
      ∃ rest, Opens content rest ∧ IsClosed rest header body := by
  rw [← parts?_eq_none_iff, split_eq]
  simp only [← parts?_eq_some_iff]
  cases parts? content with
  | none => exact ⟨.inl rfl, iff_of_true rfl rfl, fun _ _ => iff_of_false nofun nofun⟩
  | some parts =>
      refine ⟨.inr ⟨parts.1, parts.2, rfl⟩, iff_of_false nofun nofun, fun header body => ?_⟩
      rw [Prod.mk.injEq, Option.some_inj, Option.some_inj, Prod.ext_iff]

example : split "---\r\ntags: work\n--- \nText".toList =
    (some "tags: work\n".toList, "Text".toList) := by
  decide +kernel

end Frontmatter
end Commonplace
