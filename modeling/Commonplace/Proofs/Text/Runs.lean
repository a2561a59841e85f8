import Commonplace.Proofs.Text.Recasing
import Mathlib.Data.List.TakeWhile

namespace Commonplace
namespace Text

/-!
# Words of texts that are put together

A text can be cut in front of a separator or behind one, and its runs are those of the two parts.
So the runs of an excerpt that starts and ends with a word are runs of the whole text, one after the
other.
-/

section Cutting

variable {keep : Char -> Bool}

theorem runs_append_separator (first rest : List Char) {separator : Char}
    (cuts : keep separator = false) :
    runs keep (first ++ separator :: rest) = runs keep first ++ runs keep rest := by
  have separates : (!keep separator) = true := by rw [cuts]; rfl
  rw [runs, List.splitOnP_append_cons first rest separates, List.filter_append]
  rfl

theorem runs_nil : runs keep [] = [] := by
  rw [runs, List.splitOnP_nil]
  rfl

theorem runs_separator_cons {separator : Char} (cuts : keep separator = false)
    (rest : List Char) : runs keep (separator :: rest) = runs keep rest := by
  have split := runs_append_separator [] rest cuts
  rw [List.nil_append, runs_nil, List.nil_append] at split
  exact split

/-- Whether a text is empty or ends with a separator. -/
def EndsCut (keep : Char -> Bool) (characters : List Char) : Prop :=
  ∀ last ∈ characters.getLast?, keep last = false

/-- Whether a text is empty or begins with a separator. -/
def BeginsCut (keep : Char -> Bool) (characters : List Char) : Prop :=
  ∀ head ∈ characters.head?, keep head = false

theorem runs_append_of_endsCut {before : List Char} (cut : EndsCut keep before)
    (rest : List Char) : runs keep (before ++ rest) = runs keep before ++ runs keep rest := by
  rcases List.eq_nil_or_concat' before with rfl | ⟨start, last, rfl⟩
  · rw [runs_nil, List.nil_append, List.nil_append]
  · have cuts := cut last List.getLast?_concat
    rw [List.append_assoc, List.singleton_append, runs_append_separator start rest cuts,
      runs_append_separator start [] cuts, runs_nil, List.append_nil]

theorem runs_append_of_beginsCut (first : List Char) {after : List Char}
    (cut : BeginsCut keep after) :
    runs keep (first ++ after) = runs keep first ++ runs keep after := by
  cases after with
  | nil => rw [runs_nil, List.append_nil, List.append_nil]
  | cons head tail =>
      have cuts := cut head rfl
      rw [runs_append_separator first tail cuts, runs_separator_cons cuts]

end Cutting

/-! ## Words and gaps -/

/-- Whether some characters are one word. -/
structure IsRun (keep : Char -> Bool) (word : List Char) : Prop where
  notEmpty : word ≠ []
  kept : ∀ character ∈ word, keep character = true

/-- Whether some characters may stand between two words. -/
structure IsGap (keep : Char -> Bool) (gap : List Char) : Prop where
  notEmpty : gap ≠ []
  cuts : ∀ character ∈ gap, keep character = false

instance (keep : Char -> Bool) (word : List Char) : Decidable (IsRun keep word) :=
  have : Decidable (∀ character ∈ word, keep character = true) := List.decidableBAll _ word
  decidable_of_iff (_ ∧ _) ⟨fun parts => ⟨parts.1, parts.2⟩, fun isRun =>
    ⟨isRun.notEmpty, isRun.kept⟩⟩

instance (keep : Char -> Bool) (gap : List Char) : Decidable (IsGap keep gap) :=
  have : Decidable (∀ character ∈ gap, keep character = false) := List.decidableBAll _ gap
  decidable_of_iff (_ ∧ _) ⟨fun parts => ⟨parts.1, parts.2⟩, fun isGap =>
    ⟨isGap.notEmpty, isGap.cuts⟩⟩

section Words

variable {keep : Char -> Bool}

theorem IsGap.beginsCut {gap : List Char} (isGap : IsGap keep gap) (rest : List Char) :
    BeginsCut keep (gap ++ rest) := by
  intro head first
  rw [List.head?_append_of_ne_nil _ isGap.notEmpty] at first
  exact isGap.cuts head (List.mem_of_mem_head? first)

theorem runs_of_isRun {word : List Char} (isRun : IsRun keep word) : runs keep word = [word] := by
  have whole : word.splitOnP (fun character => !keep character) = [word] :=
    List.splitOnP_eq_singleton fun character member => by rw [isRun.kept character member]; rfl
  have notEmpty : word.isEmpty = false := List.isEmpty_eq_false_iff.mpr isRun.notEmpty
  rw [runs, whole, List.filter_singleton, notEmpty]
  rfl

theorem runs_gap_append {gap : List Char} (cuts : ∀ character ∈ gap, keep character = false)
    (rest : List Char) : runs keep (gap ++ rest) = runs keep rest := by
  induction gap with
  | nil => rfl
  | cons head tail inductionHypothesis =>
      have parts := List.forall_mem_cons.mp cuts
      rw [List.cons_append, runs_separator_cons parts.1, inductionHypothesis parts.2]

theorem runs_word_gap_append {word gap : List Char} (isRun : IsRun keep word)
    (isGap : IsGap keep gap) (rest : List Char) :
    runs keep (word ++ (gap ++ rest)) = word :: runs keep rest := by
  rw [runs_append_of_beginsCut word (isGap.beginsCut rest), runs_of_isRun isRun,
    runs_gap_append isGap.cuts, List.singleton_append]

end Words

/-! ## Excerpts -/

/-- Whether a text begins with a word. -/
def BeginsKept (keep : Char -> Bool) (text : List Char) : Prop :=
  ∃ head ∈ text.head?, keep head = true

/-- A text that is cut out of another from the start of a word to the end of a word. -/
structure IsExcerpt (keep : Char -> Bool) (text excerpt : List Char) : Prop where
  within : ∃ before after, text = before ++ excerpt ++ after ∧ EndsCut keep before ∧
    BeginsCut keep after
  begins : BeginsKept keep excerpt
  stops : ∃ last ∈ excerpt.getLast?, keep last = true

/-- The words of an excerpt follow each other in the text. -/
theorem IsExcerpt.runs_infix {keep : Char -> Bool} {text excerpt : List Char}
    (cut : IsExcerpt keep text excerpt) : runs keep excerpt <:+: runs keep text := by
  rcases cut.within with ⟨before, after, rfl, opened, closed⟩
  rw [runs_append_of_beginsCut (before ++ excerpt) closed, runs_append_of_endsCut opened]
  exact ⟨_, _, rfl⟩

/-- Whether a text repeats another word by word: letters may change their case, and something else
may stand between two words. -/
inductive Retyped (keep : Char -> Bool) : List Char -> List Char -> Prop where
  | word {word other : List Char} (isRun : IsRun keep word) (same : SameLetters word other) :
      Retyped keep word other
  | more {word other gap otherGap rest others : List Char} (isRun : IsRun keep word)
      (same : SameLetters word other) (isGap : IsGap keep gap) (isOtherGap : IsGap keep otherGap)
      (later : Retyped keep rest others) :
      Retyped keep (word ++ (gap ++ rest)) (other ++ (otherGap ++ others))

theorem exists_word_append {keep : Char -> Bool} {text : List Char}
    (begins : BeginsKept keep text) :
    ∃ word rest, text = word ++ rest ∧ IsRun keep word ∧ BeginsCut keep rest := by
  refine ⟨text.takeWhile keep, text.dropWhile keep,
    List.takeWhile_append_dropWhile.symm, ⟨?_, fun _ => List.mem_takeWhile_imp⟩,
    fun _ => stays_of_mem_head?_dropWhile⟩
  rcases begins with ⟨head, first, kept⟩
  rcases List.head?_eq_some_iff.mp first with ⟨tail, rfl⟩
  rw [List.takeWhile_cons, if_pos kept]
  exact List.cons_ne_nil _ _

theorem exists_gap_append {keep : Char -> Bool} {text : List Char} (notEmpty : text ≠ [])
    (cut : BeginsCut keep text) :
    ∃ gap rest, text = gap ++ rest ∧ IsGap keep gap ∧ (rest ≠ [] → BeginsKept keep rest) := by
  refine ⟨text.takeWhile fun character => !keep character,
    text.dropWhile fun character => !keep character, List.takeWhile_append_dropWhile.symm,
    ⟨?_, fun _ member => by simpa using List.mem_takeWhile_imp member⟩, ?_⟩
  · rcases List.exists_cons_of_ne_nil notEmpty with ⟨head, tail, rfl⟩
    rw [List.takeWhile_cons, cut head rfl]
    exact List.cons_ne_nil _ _
  · intro more
    refine ⟨_, List.head?_eq_some_head more, ?_⟩
    simpa using stays_of_mem_head?_dropWhile (List.head?_eq_some_head more)

/-- What begins and ends with a word repeats itself. -/
theorem retyped_self {keep : Char -> Bool} {text : List Char} (begins : BeginsKept keep text)
    (stops : ∃ last ∈ text.getLast?, keep last = true) : Retyped keep text text := by
  -- The induction is on the length, since a step takes a word and the gap behind it.
  induction measured : text.length using Nat.strongRecOn generalizing text with
  | ind size inductionHypothesis =>
  rcases exists_word_append begins with ⟨word, behind, rfl, isRun, cut⟩
  by_cases ended : behind = []
  · rw [ended, List.append_nil]
    exact .word isRun rfl
  · rcases exists_gap_append ended cut with ⟨gap, rest, rfl, isGap, beginsRest⟩
    rcases stops with ⟨last, final, kept⟩
    rw [List.getLast?_append_of_ne_nil _ ended] at final
    have more : rest ≠ [] := by
      rintro rfl
      rw [List.append_nil] at final
      have cuts := isGap.cuts last (List.mem_of_getLast? final)
      rw [cuts] at kept
      cases kept
    rw [List.getLast?_append_of_ne_nil _ more] at final
    have shorter : rest.length < size := by
      have positive := List.length_pos_iff.mpr isRun.notEmpty
      rw [List.length_append, List.length_append] at measured
      omega
    exact .more isRun rfl isGap isGap
      (inductionHypothesis rest.length shorter (beginsRest more) ⟨last, final, kept⟩ rfl)

theorem IsRun.of_sameLetters {keep : Char -> Bool} (small : keep ∘ Char.toLower = keep)
    {word other : List Char} (isRun : IsRun keep word) (same : SameLetters word other) :
    IsRun keep other := by
  constructor
  · rintro rfl
    exact isRun.notEmpty (List.map_eq_nil_iff.mp same)
  · intro character member
    have lowered : character.toLower ∈ word.map Char.toLower := by
      rw [same]
      exact List.mem_map_of_mem member
    rcases List.mem_map.mp lowered with ⟨origin, inWord, sameLetter⟩
    have kept := isRun.kept origin inWord
    rw [← small] at kept ⊢
    rw [Function.comp_apply, ← sameLetter]
    exact kept

/-- A text that repeats another has the same words, up to the case of their letters. -/
theorem Retyped.runs_eq {keep : Char -> Bool} (small : keep ∘ Char.toLower = keep)
    {text copy : List Char} (retyped : Retyped keep text copy) :
    (runs keep text).map (List.map Char.toLower) =
      (runs keep copy).map (List.map Char.toLower) := by
  induction retyped with
  | word isRun same =>
      rw [runs_of_isRun isRun, runs_of_isRun (isRun.of_sameLetters small same),
        List.map_singleton, List.map_singleton, same]
  | more isRun same isGap isOtherGap _ inductionHypothesis =>
      rw [runs_word_gap_append isRun isGap,
        runs_word_gap_append (isRun.of_sameLetters small same) isOtherGap, List.map_cons,
        List.map_cons, same, inductionHypothesis]

end Text
end Commonplace
