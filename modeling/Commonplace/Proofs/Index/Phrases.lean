import Commonplace.Index.Results
import Commonplace.Proofs.Text.Matching
import Commonplace.Proofs.Text.Runs

namespace Commonplace
namespace Index

/-!
# A phrase that is copied from a note finds the note

The words of an excerpt are words of the text that follow each other, so their stems stand in a row
in the index.  Long words would leave gaps there that a query does not know of, but an excerpt
without long words has none.  A stem does not tell the case of ASCII letters, and what stands
between two words leaves no trace.
-/

open Text (byteSize)

/-! ## Words in the index -/

/-- The form of the words of a text, and their places, are a matter of their letters. -/
theorem placed_congr {form : List Char -> List Char}
    (small : ∀ word, form (word.map Char.toLower) = form word) {first second : String}
    (same : (writtenWords first).map (List.map Char.toLower) =
      (writtenWords second).map (List.map Char.toLower)) :
    placed form first = placed form second := by
  have size : ∀ word, byteSize (word.map Char.toLower) = byteSize word := by
    intro word
    rw [byteSize, byteSize, String.utf8ByteSize_ofList, String.utf8ByteSize_ofList,
      Text.utf8Len_map_toLower]
  have read : ∀ text, placed form text = ((writtenWords text).map (List.map Char.toLower)).map
      fun word => if isLong word then none else some (String.ofList (form word)) := by
    intro text
    rw [placed, List.map_map]
    apply List.map_congr_left
    intro word _
    rw [Function.comp_apply, isLong, isLong, size, small]
  rw [read, same, ← read]

theorem stemOf_map_toLower (word : List Char) : stemOf (word.map Char.toLower) = stemOf word := by
  rw [stemOf, stemOf, Text.lowerEach_map_toLower]

/-- Without long words, all stems of a text are in their places. -/
theorem stemPlaces_of_short {text : String}
    (short : ∀ word ∈ writtenWords text, byteSize word < longWordSize) :
    stemPlaces text = (stems text).map some := by
  have filled : ∀ place ∈ stemPlaces text, place ≠ none := by
    intro place member
    rcases List.mem_map.mp member with ⟨word, inText, rfl⟩
    have notLong : isLong word = false := decide_eq_false (Nat.not_le.mpr (short word inText))
    rw [notLong]
    exact Option.some_ne_none _
  rw [stems]
  generalize stemPlaces text = places at filled ⊢
  induction places with
  | nil => rfl
  | cons head tail inductionHypothesis =>
      have parts := List.forall_mem_cons.mp filled
      rcases Option.ne_none_iff_exists'.mp parts.1 with ⟨stem, rfl⟩
      exact congrArg (some stem :: ·) (inductionHypothesis parts.2)

/-- Stems occur as a phrase just where they stand in a row. -/
theorem occursAsPhrase_iff {stems : List String} {places : List (Option String)} :
    occursAsPhrase stems places = true ↔ stems.map some <:+: places := by
  rw [occursAsPhrase, phraseStarts, Bool.not_eq_true', List.isEmpty_eq_false_iff_exists_mem,
    List.infix_iff_prefix_suffix]
  simp only [List.mem_filter, Text.mem_ends, List.isPrefixOf_iff_prefix, and_comm]

/-! ## Excerpts -/

/-- The field of a note that a text is. -/
def TextSlot.field : TextSlot -> Field
  | title => .title
  | lead => .lead
  | body => .body

/-- The stems of an excerpt without long words stand in a row in the text. -/
theorem occursAsPhrase_of_isExcerpt {text excerpt : String}
    (cut : Text.IsExcerpt Text.isAlphanumeric text.toList excerpt.toList)
    (short : ∀ word ∈ writtenWords excerpt, byteSize word < longWordSize) :
    occursAsPhrase (stems excerpt) (stemPlaces text) = true := by
  rw [occursAsPhrase_iff, ← stemPlaces_of_short short]
  exact cut.runs_infix.map _

/-- A text that begins with a word that is not long has a stem. -/
theorem stems_ne_nil {text : String} (begins : Text.BeginsKept Text.isAlphanumeric text.toList)
    (short : ∀ word ∈ writtenWords text, byteSize word < longWordSize) : stems text ≠ [] := by
  intro none
  have places := stemPlaces_of_short short
  rw [none, List.map_nil, stemPlaces, placed, List.map_eq_nil_iff] at places
  rcases Text.exists_word_append begins with ⟨word, rest, split, isRun, cut⟩
  rw [writtenWords, split, Text.runs_append_of_beginsCut word cut,
    Text.runs_of_isRun isRun] at places
  cases places

theorem selects_wordsCriterion {note : Note} {slot : TextSlot} {value : String}
    (someStem : stems value ≠ [])
    (occurs : occursAsPhrase (stems value) (stemPlaces (slot.text note)) = true) (weight : Nat) :
    (wordsCriterion slot value weight).selects note = true := by
  rw [wordsCriterion]
  cases found : stems value with
  | nil => exact absurd found someStem
  | cons first rest =>
      rw [found] at occurs
      exact occurs

theorem selects_termCriterion {note : Note} {slot : TextSlot} {value : String}
    (selects : ∀ weight, (wordsCriterion slot value weight).selects note = true) :
    (termCriterion value).selects note = true := by
  have inSlot := selects slot.weight
  cases slot <;> simp [termCriterion, Criterion.selects, Criterion.selectsSome, inSlot]

/-- What is copied from a text of a note, from the start of a word to the end of a word and without
long words, finds the note: as a term, and as a value that the text is asked to equal.  This is so
for the excerpt as it stands and for everything that repeats its words. -/
theorem copied_phrase_finds_note [PatternEngine] {contents : Contents} {note : Note}
    (held : note ∈ contents.notes) (slot : TextSlot) {excerpt : String}
    (cut : Text.IsExcerpt Text.isAlphanumeric (slot.text note).toList excerpt.toList)
    (short : ∀ word ∈ writtenWords excerpt, byteSize word < longWordSize) (now : Time.Instant) :
    Text.Retyped Text.isAlphanumeric excerpt.toList excerpt.toList ∧
      ∀ copy : String, Text.Retyped Text.isAlphanumeric excerpt.toList copy.toList →
        (∃ found, criterion now (.term copy) = .ok found ∧
          note ∈ selected contents.notes found) ∧
        ∀ name, Field.ofName name = slot.field →
          ∃ found, criterion now (.field name .equals copy) = .ok found ∧
            note ∈ selected contents.notes found := by
  refine ⟨Text.retyped_self cut.begins cut.stops, ?_⟩
  intro copy retyped
  have small : Text.isAlphanumeric ∘ Char.toLower = Text.isAlphanumeric :=
    funext Text.isAlphanumeric_toLower
  have sameStems : stems excerpt = stems copy :=
    congrArg (List.filterMap id) (placed_congr stemOf_map_toLower (retyped.runs_eq small))
  have selects : ∀ weight, (wordsCriterion slot copy weight).selects note = true := by
    apply selects_wordsCriterion
    · rw [← sameStems]
      exact stems_ne_nil cut.begins short
    · rw [← sameStems]
      exact occursAsPhrase_of_isExcerpt cut short
  constructor
  · exact ⟨_, rfl, List.mem_filter.mpr ⟨held, selects_termCriterion selects⟩⟩
  · intro name field
    refine ⟨wordsCriterion slot copy 1, ?_, List.mem_filter.mpr ⟨held, selects 1⟩⟩
    rw [criterion, fieldCriterion, field]
    cases slot <;> rfl

/-- A note on a method, with its name in the body. -/
def methodNote : Note :=
  { Note.ofPath "methods.md" with body := "On Naïve—Bayes, in short." }

theorem naive_bayes_isExcerpt :
    Text.IsExcerpt Text.isAlphanumeric methodNote.body.toList "Naïve—Bayes".toList where
  within := ⟨"On ".toList, ", in short.".toList, by decide,
    fun last final => by cases final; decide, fun head first => by cases first; decide⟩
  begins := ⟨'N', rfl, by decide⟩
  stops := ⟨'s', rfl, by decide⟩

theorem naive_bayes_retyped : Text.Retyped Text.isAlphanumeric "Naïve—Bayes".toList
    "NAïVE, (bayes".toList := by
  have retyped : Text.Retyped Text.isAlphanumeric
      ("Naïve".toList ++ ("—".toList ++ "Bayes".toList))
      ("NAïVE".toList ++ (", (".toList ++ "bayes".toList)) :=
    .more (by decide +kernel) (by decide) (by decide +kernel) (by decide) (.word (by decide) (by decide))
  exact retyped

/-- An index with this note. -/
def methods : Contents :=
  ⟨[methodNote], [methodNote]⟩

open scoped PatternEngine

/-- The name of the method finds the note in another spelling, anywhere and in the body. -/
theorem respelled_method_is_found :
    (∃ found, criterion ⟨0, 0⟩ (.term "NAïVE, (bayes") = .ok found ∧
      methodNote ∈ selected methods.notes found) ∧
    ∃ found, criterion ⟨0, 0⟩ (.field "Content" .equals "NAïVE, (bayes") = .ok found ∧
      methodNote ∈ selected methods.notes found := by
  have held : methodNote ∈ methods.notes := List.mem_singleton_self _
  have finds := (copied_phrase_finds_note held .body naive_bayes_isExcerpt (by decide +kernel)
    ⟨0, 0⟩).2 _ naive_bayes_retyped
  exact ⟨finds.1, finds.2 "Content" (by decide +kernel)⟩

end Index
end Commonplace
