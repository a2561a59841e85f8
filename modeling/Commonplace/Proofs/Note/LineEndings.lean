import Commonplace.Proofs.Note.Reading
import Commonplace.Proofs.Text.Paragraphs

namespace Commonplace

/-!
# Notes with carriage returns

A note is read from a text whose lines end in a line feed, and from the same text with a carriage
return in front of each of them.  The header is found and understood alike, and so are the headings.
Only paragraphs are not told apart with carriage returns, so the lead is another one when there are
several paragraphs.
-/

open Text

namespace Yaml

/-- A document does not depend on how its line breaks are written. -/
theorem unifyBreaks_withReturns {characters : List Char} (noReturn : '\r' ∉ characters) :
    unifyBreaks (withReturns characters) = unifyBreaks characters := by
  induction characters with
  | nil => rfl
  | cons head tail inductionHypothesis =>
      rw [List.mem_cons, not_or] at noReturn
      have later := inductionHypothesis noReturn.2
      by_cases isBreak : head = '\n'
      · rw [isBreak, withReturns_break_cons, unifyBreaks, unifyBreaks, later]
        · rfl
        · exact fun _ first _ => absurd first (by decide)
      · rw [withReturns_cons isBreak, unifyBreaks, unifyBreaks, later]
        · exact fun _ first _ => noReturn.1 first.symm
        · exact fun _ first _ => noReturn.1 first.symm

theorem all_isAllowed_withReturns (characters : List Char) :
    (withReturns characters).all isAllowed = characters.all isAllowed := by
  induction characters with
  | nil => rfl
  | cons head tail inductionHypothesis =>
      by_cases isBreak : head = '\n'
      · rw [isBreak, withReturns_break_cons, List.all_cons, List.all_cons, List.all_cons,
          inductionHypothesis]
        rfl
      · rw [withReturns_cons isBreak, List.all_cons, List.all_cons, inductionHypothesis]

theorem read?_withReturns {characters : List Char} (noReturn : '\r' ∉ characters) :
    read? (String.ofList (withReturns characters)) = read? (String.ofList characters) := by
  have sameCells : cellsOf (withReturns characters) = cellsOf characters := by
    rw [cellsOf, cellsOf, unifyBreaks_withReturns noReturn, all_isAllowed_withReturns]
  rw [read?, read?, String.toList_ofList, String.toList_ofList, tokensOf, tokensOf, sameCells]

end Yaml

namespace Frontmatter

/-- A header is opened by three dashes and the end of the line. -/
theorem afterOpening_eq_none {content : List Char} (noDashes : ¬['-', '-', '-'] <+: content) :
    afterOpening content = none := by
  unfold afterOpening
  split
  · rename_i rest
    exact absurd ⟨'\n' :: rest, rfl⟩ noDashes
  · rename_i rest
    exact absurd ⟨'\r' :: '\n' :: rest, rfl⟩ noDashes
  · rfl

theorem afterOpening_eq_none_of_head {head : Char} (noBreak : head ≠ '\n')
    (noReturn : head ≠ '\r') (rest : List Char) :
    afterOpening ('-' :: '-' :: '-' :: head :: rest) = none := by
  rw [afterOpening]
  · rintro more ⟨⟩
    exact noBreak rfl
  · rintro more ⟨⟩
    exact noReturn rfl

theorem afterOpening_withReturns {content : List Char} (noReturn : '\r' ∉ content) :
    afterOpening (withReturns content) = (afterOpening content).map withReturns := by
  by_cases dashes : ['-', '-', '-'] <+: content
  · rcases dashes with ⟨rest, rfl⟩
    rw [withReturns_append]
    cases rest with
    | nil => rfl
    | cons head tail =>
        by_cases isBreak : head = '\n'
        · rw [isBreak]
          rfl
        · have notReturn : head ≠ '\r' := fun same => noReturn (by simp [same])
          have none := afterOpening_eq_none_of_head isBreak notReturn
          rw [withReturns_cons isBreak]
          exact (none _).trans (congrArg (Option.map withReturns) (none tail)).symm
  · have noEnd : ∀ character ∈ ['-', '-', '-'], character ≠ '\r' ∧ character ≠ '\n' := by
      simp only [List.forall_mem_cons]
      exact ⟨by decide, by decide, by decide, fun _ => nofun⟩
    have noDashes := (startsWith_withReturns noEnd content).not.mpr dashes
    rw [afterOpening_eq_none dashes, afterOpening_eq_none noDashes]
    rfl

theorem isClosing_withReturns (line : List Char) :
    isClosing (withReturns line) = isClosing line := by
  have same : ∀ marker : List Char, '\n' ∉ marker →
      (withReturns (dropEndWhile isBlank line) == marker) =
        (dropEndWhile isBlank line == marker) := by
    intro marker noBreak
    rw [Bool.eq_iff_iff, beq_iff_eq, beq_iff_eq]
    exact withReturns_eq_iff noBreak
  rw [isClosing, isClosing, dropEndWhile_withReturns, same _ (by decide), same _ (by decide)]

theorem cutAtClosing_withReturns (lines : List (List Char)) :
    cutAtClosing (lines.map withReturns) =
      (cutAtClosing lines).map fun parts => (withReturns parts.1, withReturns parts.2) := by
  induction lines with
  | nil => rfl
  | cons line lines inductionHypothesis =>
      rw [List.map_cons, cutAtClosing, cutAtClosing, isClosing_withReturns]
      split
      · rw [Option.map_some, withReturns_flatten]
        rfl
      · rw [inductionHypothesis, Option.map_map, Option.map_map]
        congr 1
        funext parts
        exact Prod.ext (withReturns_append line parts.1).symm rfl

theorem split_withReturns {content : List Char} (noReturn : '\r' ∉ content) :
    split (withReturns content) =
      ((split content).1.map withReturns, withReturns (split content).2) := by
  unfold split
  rw [afterOpening_withReturns noReturn]
  cases afterOpening content with
  | none => rfl
  | some rest =>
      rw [Option.map_some]
      dsimp only
      rw [cut?_eq, cut?_eq, linesKept_withReturns, cutAtClosing_withReturns]
      cases cutAtClosing (linesKept rest) <;> rfl

theorem entries_withReturns {header : List Char} (noReturn : '\r' ∉ header) :
    entries (withReturns header) = entries header := by
  rw [entries, entries, all_isBlank_withReturns, Yaml.read?_withReturns noReturn]

theorem bodyOf_withReturns {content : List Char} (noReturn : '\r' ∉ content) :
    bodyOf (withReturns content) = withReturns (bodyOf content) := by
  rw [bodyOf, split_withReturns noReturn]
  rfl

theorem entriesOf_withReturns {content : List Char} (noReturn : '\r' ∉ content) :
    entriesOf (withReturns content) = entriesOf content := by
  have parts := (split_parts content).1
  rw [entriesOf, entriesOf, split_withReturns noReturn]
  cases found : (split content).1 with
  | none => rfl
  | some header =>
      have noReturnInHeader : '\r' ∉ header := fun member =>
        noReturn ((parts header found).mem member)
      exact entries_withReturns noReturnInHeader

end Frontmatter

namespace Note

theorem firstHeading_withReturns {body : List Char} (noReturn : '\r' ∉ body) :
    firstHeading (withReturns body) = firstHeading body := by
  rw [firstHeading, firstHeading, lines_withReturns noReturn]

/-- Carriage returns in front of the line feeds of a text change nothing in the note that is read
from it but its body and its lead.  The lead is then that of one paragraph. -/
theorem read_withReturns {content : String} (noReturn : '\r' ∉ content.toList) (path : String)
    (fileTime : Option Time.Instant) (now : Time.Instant) :
    read path (String.ofList (withReturns content.toList)) fileTime now =
      { read path content fileTime now with
        body := String.ofList (withReturns (Frontmatter.bodyOf content.toList))
        lead := String.ofList (leadAsOne (Frontmatter.bodyOf content.toList)) } := by
  have noReturnInBody : '\r' ∉ Frontmatter.bodyOf content.toList := fun member =>
    noReturn ((Frontmatter.split_parts content.toList).2.mem member)
  rw [read_eq, read_eq, String.toList_ofList, Frontmatter.entriesOf_withReturns noReturn,
    Frontmatter.bodyOf_withReturns noReturn, ofParts, titleOf,
    firstHeading_withReturns noReturnInBody, collapseChars_firstParagraphChars_withReturns]
  rfl

/-- What a note means changes with carriage returns exactly when its lead does.  This happens when
it has several paragraphs and not all of them are headings. -/
theorem meaning_with_returns {content : String} (noReturn : '\r' ∉ content.toList) (path : String)
    (fileTime : Option Time.Instant) (now : Time.Instant) :
    let note := read path content fileTime now
    let other := read path (String.ofList (withReturns content.toList)) fileTime now
    other = { note with
      body := String.ofList (withReturns note.body.toList)
      lead := String.ofList (leadAsOne note.body.toList) } ∧
    (other.lead = note.lead ↔
      (∀ block ∈ blocks note.body.toList, isHeading block = true) ∨
        (blocks note.body.toList).length ≤ 1) := by
  intro note other
  have sameBody : note.body.toList = Frontmatter.bodyOf content.toList := by
    rw [show note = _ from read_eq path content fileTime now, ofParts, String.toList_ofList]
  have whole : other = _ := read_withReturns noReturn path fileTime now
  rw [sameBody]
  refine ⟨whole, ?_⟩
  rw [whole, show note = _ from read_eq path content fileTime now, ofParts, String.ofList_inj]
  exact leadAsOne_eq_iff _

theorem plan_with_returns :
    let content := "---\ntags: work\n---\nOne\n\nTwo\n"
    let note := read "a.md" content none default
    let other := read "a.md" (String.ofList (withReturns content.toList)) none default
    '\r' ∉ content.toList ∧ note.tags = ["work"] ∧ other.tags = note.tags ∧
      other.lead ≠ note.lead := by
  intro content note other
  have noReturn : '\r' ∉ content.toList := by decide
  have meaning := meaning_with_returns noReturn "a.md" none default
  have sameTags : other.tags = note.tags := by rw [show other = _ from meaning.1]
  refine ⟨noReturn, by decide +kernel, sameTags, fun same => ?_⟩
  exact absurd (meaning.2.mp same) (by decide +kernel)

/-- The lead of a note with two paragraphs, and that of the note with carriage returns. -/
theorem lead_with_returns :
    (read "a.md" "One\n\nTwo\n" none default).lead = "One" ∧
      (read "a.md" (String.ofList (withReturns "One\n\nTwo\n".toList)) none default).lead =
        "One Two" := by
  decide +kernel

end Note
end Commonplace
