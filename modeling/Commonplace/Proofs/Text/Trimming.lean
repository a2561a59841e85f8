import Commonplace.Text.Blank
import Mathlib.Data.List.Basic

namespace Commonplace
namespace Text

/-!
# Trimmed texts and runs

A text is trimmed when no blank stands at either of its ends.  Trimming leads to such texts and
leaves them as they are.  The runs of a text hold nothing but characters of the text that are kept.
-/

section Ends

variable {item : Type} {drop : item -> Bool}

theorem dropWhile_of_head? {items : List item} (stays : ∀ head ∈ items.head?, drop head = false) :
    items.dropWhile drop = items := by
  cases items with
  | nil => rfl
  | cons head tail => rw [List.dropWhile_cons, stays head rfl, if_neg Bool.false_ne_true]

theorem stays_of_mem_head?_dropWhile {items : List item} {head : item}
    (first : head ∈ (items.dropWhile drop).head?) : drop head = false := by
  have stays := List.head?_dropWhile_not drop items
  rw [Option.mem_def.mp first] at stays
  exact stays

end Ends

/-- Whether no blank stands at the ends of a text. -/
structure IsTrimmed (characters : List Char) : Prop where
  start : ∀ head ∈ characters.head?, isBlank head = false
  stop : ∀ last ∈ characters.getLast?, isBlank last = false

/-- A text without blanks is trimmed. -/
theorem IsTrimmed.of_forall {characters : List Char}
    (solid : ∀ character ∈ characters, isBlank character = false) : IsTrimmed characters :=
  ⟨fun head first => solid head (List.mem_of_mem_head? first),
    fun last final => solid last (List.mem_of_getLast? final)⟩

theorem dropEndWhile_isPrefix (drop : Char -> Bool) (characters : List Char) :
    dropEndWhile drop characters <+: characters := by
  have suffix := List.dropWhile_suffix drop (l := characters.reverse)
  rw [← List.reverse_prefix, List.reverse_reverse] at suffix
  exact suffix

/-- Trimming leads to trimmed texts. -/
theorem isTrimmed_trimChars (characters : List Char) : IsTrimmed (trimChars characters) := by
  constructor
  · intro head first
    -- Dropping blanks at the end keeps the first character of what is left.
    have kept := dropEndWhile_isPrefix isBlank (characters.dropWhile isBlank)
    have below := (List.singleton_prefix_iff_head?_eq_some.mpr first).trans kept
    exact stays_of_mem_head?_dropWhile (List.singleton_prefix_iff_head?_eq_some.mp below)
  · intro last final
    rw [trimChars, dropEndsWhile, dropEndWhile, List.getLast?_reverse] at final
    exact stays_of_mem_head?_dropWhile final

/-- A trimmed text is its own trim. -/
theorem trimChars_of_isTrimmed {characters : List Char} (trimmed : IsTrimmed characters) :
    trimChars characters = characters := by
  have stop : ∀ head ∈ characters.reverse.head?, isBlank head = false := by
    rw [List.head?_reverse]
    exact trimmed.stop
  rw [trimChars, dropEndsWhile, dropEndWhile, dropWhile_of_head? trimmed.start,
    dropWhile_of_head? stop, List.reverse_reverse]

theorem trim_of_isTrimmed {text : String} (trimmed : IsTrimmed text.toList) : trim text = text := by
  rw [trim, trimChars_of_isTrimmed trimmed, String.ofList_toList]

/-- Blanks around a trimmed text are dropped. -/
theorem trimChars_append {before characters after : List Char} (trimmed : IsTrimmed characters)
    (notEmpty : characters ≠ []) (blankBefore : ∀ character ∈ before, isBlank character = true)
    (blankAfter : ∀ character ∈ after, isBlank character = true) :
    trimChars (before ++ (characters ++ after)) = characters := by
  have start : ∀ head ∈ (characters ++ after).head?, isBlank head = false := by
    rw [List.head?_append_of_ne_nil _ notEmpty]
    exact trimmed.start
  have stop : ∀ head ∈ characters.reverse.head?, isBlank head = false := by
    rw [List.head?_reverse]
    exact trimmed.stop
  have blanks : ∀ character ∈ after.reverse, isBlank character = true := fun character member =>
    blankAfter character (List.mem_reverse.mp member)
  rw [trimChars, dropEndsWhile, dropEndWhile, List.dropWhile_append_of_pos blankBefore,
    dropWhile_of_head? start, List.reverse_append, List.dropWhile_append_of_pos blanks,
    dropWhile_of_head? stop, List.reverse_reverse]

/-- Trimming a text twice is the same as once. -/
@[simp] theorem trim_trim (text : String) : trim (trim text) = trim text := by
  apply trim_of_isTrimmed
  rw [trim, String.toList_ofList]
  exact isTrimmed_trimChars text.toList

/-! ## Runs -/

/-- The pieces of a text hold its characters, and no separator. -/
theorem mem_of_mem_splitOnP {separates : Char -> Bool} {characters piece : List Char}
    (isPiece : piece ∈ characters.splitOnP separates) {character : Char}
    (member : character ∈ piece) : character ∈ characters ∧ separates character = false := by
  induction characters generalizing piece with
  | nil =>
      rw [List.splitOnP_nil, List.mem_singleton] at isPiece
      rw [isPiece] at member
      cases member
  | cons head tail inductionHypothesis =>
      have later : ∀ part ∈ tail.splitOnP separates, character ∈ part ->
          character ∈ head :: tail ∧ separates character = false := by
        intro part inTail inPart
        have found := inductionHypothesis inTail inPart
        exact ⟨List.mem_cons_of_mem head found.1, found.2⟩
      rw [List.splitOnP_cons_eq_if_modifyHead] at isPiece
      by_cases cut : separates head = true
      · rw [if_pos cut] at isPiece
        rcases List.mem_cons.mp isPiece with rfl | inTail
        · cases member
        · exact later piece inTail member
      · rw [if_neg cut] at isPiece
        rcases List.exists_cons_of_ne_nil (List.splitOnP_ne_nil separates tail) with
          ⟨first, others, whole⟩
        rw [whole] at isPiece later
        rcases List.mem_cons.mp isPiece with rfl | inOthers
        · rcases List.mem_cons.mp member with rfl | inFirst
          · exact ⟨List.mem_cons_self, Bool.eq_false_iff.mpr cut⟩
          · exact later first List.mem_cons_self inFirst
        · exact later piece (List.mem_cons_of_mem first inOthers) member

/-- The runs of a text hold characters of the text that are kept. -/
theorem mem_of_mem_runs {keep : Char -> Bool} {characters run : List Char}
    (isRun : run ∈ runs keep characters) {character : Char} (member : character ∈ run) :
    character ∈ characters ∧ keep character = true := by
  have found := mem_of_mem_splitOnP (List.mem_filter.mp isRun).1 member
  exact ⟨found.1, by simpa using found.2⟩

end Text
end Commonplace
