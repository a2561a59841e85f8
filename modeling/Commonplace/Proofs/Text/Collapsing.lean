import Commonplace.Proofs.Text.Runs
import Mathlib.Data.List.Chain
import Mathlib.Data.List.DropRight

namespace Commonplace
namespace Text

/-!
# Collapsed texts

A text is collapsed when nothing in it is blank but single spaces between its words.  Collapsing
leads to such texts, and so does cutting a collapsed text.  A text that is put together inside a
word is collapsed part by part.
-/

/-- Whether nothing in a text is blank but single spaces between its words. -/
structure IsCollapsed (characters : List Char) : Prop extends IsTrimmed characters where
  spaces : ∀ character ∈ characters, isBlank character = true → character = ' '
  single : characters.IsChain fun first second => isBlank first = true → isBlank second = false

/-- Whether a character belongs to a word. -/
def isSolid (character : Char) : Bool :=
  !isBlank character

theorem isSolid_eq_true {character : Char} :
    isSolid character = true ↔ isBlank character = false := by
  rw [isSolid, Bool.not_eq_true']

theorem isSolid_eq_false {character : Char} :
    isSolid character = false ↔ isBlank character = true := by
  rw [isSolid, Bool.not_eq_false']

theorem isRun_of_mem_runs {keep : Char -> Bool} {characters run : List Char}
    (member : run ∈ runs keep characters) : IsRun keep run := by
  refine ⟨?_, fun character inRun => (mem_of_mem_runs member inRun).2⟩
  rintro rfl
  exact absurd (List.mem_filter.mp member).2 Bool.false_ne_true

theorem IsRun.solid {word : List Char} (isRun : IsRun isSolid word) :
    ∀ character ∈ word, isBlank character = false :=
  fun character member => isSolid_eq_true.mp (isRun.kept character member)

/-! ## Words one space apart -/

/-- What follows a word: a space and the other words, if there are any. -/
def spaced : List Char -> List Char
  | [] => []
  | characters => ' ' :: characters

theorem spaced_of_ne_nil {characters : List Char} (notEmpty : characters ≠ []) :
    spaced characters = ' ' :: characters := by
  cases characters with
  | nil => exact absurd rfl notEmpty
  | cons head tail => rfl

theorem length_spaced_le (characters : List Char) :
    (spaced characters).length ≤ characters.length + 1 := by
  cases characters with
  | nil => exact Nat.zero_le 1
  | cons head tail => exact le_refl _

theorem spaced_append {first : List Char} (notEmpty : first ≠ []) (second : List Char) :
    spaced (first ++ second) = spaced first ++ second := by
  rw [spaced_of_ne_nil (List.append_ne_nil_of_left_ne_nil notEmpty second),
    spaced_of_ne_nil notEmpty, List.cons_append]

theorem intercalate_cons {word : List Char} {words : List (List Char)}
    (areRuns : ∀ other ∈ words, IsRun isSolid other) :
    [' '].intercalate (word :: words) = word ++ spaced ([' '].intercalate words) := by
  cases words with
  | nil =>
      rw [List.intercalate_singleton, List.intercalate_nil, spaced, List.append_nil]
  | cons next more =>
      have notEmpty : [' '].intercalate (next :: more) ≠ [] := by
        have more' := (areRuns next List.mem_cons_self).notEmpty
        cases more with
        | nil =>
            rw [List.intercalate_singleton]
            exact more'
        | cons _ _ =>
            rw [List.intercalate_cons_cons]
            simp [more']
      rw [List.intercalate_cons_cons, spaced_of_ne_nil notEmpty, List.append_assoc]
      rfl

theorem isCollapsed_nil : IsCollapsed [] :=
  ⟨.of_forall fun _ => nofun, fun _ => nofun, .nil⟩

theorem IsRun.isCollapsed {word : List Char} (isRun : IsRun isSolid word) : IsCollapsed word := by
  refine ⟨.of_forall isRun.solid, ?_, ?_⟩
  · intro character member blank
    rw [isRun.solid character member] at blank
    cases blank
  · apply List.Pairwise.isChain
    exact List.pairwise_of_forall_mem_list fun _ _ second inWord _ => isRun.solid second inWord

/-- A word, a space and a collapsed text make up a collapsed text. -/
theorem IsRun.isCollapsed_append {word rest : List Char} (isRun : IsRun isSolid word)
    (collapsed : IsCollapsed rest) : IsCollapsed (word ++ spaced rest) := by
  have first := isRun.isCollapsed
  by_cases ended : rest = []
  · rw [ended, spaced, List.append_nil]
    exact first
  rw [spaced_of_ne_nil ended]
  refine ⟨⟨?_, ?_⟩, ?_, ?_⟩
  · rw [List.head?_append_of_ne_nil _ isRun.notEmpty]
    exact first.start
  · rw [List.getLast?_append_of_ne_nil _ (List.cons_ne_nil _ _),
      List.getLast?_cons_of_ne_nil ended]
    exact collapsed.stop
  · intro character member blank
    rcases List.mem_append.mp member with inWord | later
    · exact first.spaces character inWord blank
    · rcases List.mem_cons.mp later with space | inRest
      · exact space
      · exact collapsed.spaces character inRest blank
  · rw [List.isChain_append, List.isChain_cons]
    refine ⟨first.single, ⟨fun head begins _ => collapsed.start head begins, collapsed.single⟩, ?_⟩
    intro last ends _ _ blank
    rw [isRun.solid last (List.mem_of_getLast? ends)] at blank
    cases blank

theorem isCollapsed_intercalate {words : List (List Char)}
    (areRuns : ∀ word ∈ words, IsRun isSolid word) : IsCollapsed ([' '].intercalate words) := by
  induction words with
  | nil => exact isCollapsed_nil
  | cons word rest inductionHypothesis =>
      have later : ∀ other ∈ rest, IsRun isSolid other := fun other member =>
        areRuns other (List.mem_cons_of_mem word member)
      rw [intercalate_cons later]
      exact (areRuns word List.mem_cons_self).isCollapsed_append (inductionHypothesis later)

theorem isRun_of_mem_words {characters word : List Char} (member : word ∈ words characters) :
    IsRun isSolid word :=
  isRun_of_mem_runs member

/-- A text collapses to a collapsed text. -/
theorem isCollapsed_collapseChars (characters : List Char) :
    IsCollapsed (collapseChars characters) :=
  isCollapsed_intercalate fun _ => isRun_of_mem_words

/-! ## One character at a time -/

theorem collapseChars_blank_cons {head : Char} (blank : isBlank head = true) (tail : List Char) :
    collapseChars (head :: tail) = collapseChars tail := by
  unfold collapseChars words
  exact congrArg _ (runs_separator_cons (isSolid_eq_false.mpr blank) tail)

/-- A word in front of a blank or the end. -/
theorem collapseChars_word_append {word rest : List Char} (isRun : IsRun isSolid word)
    (cut : BeginsCut isSolid rest) :
    collapseChars (word ++ rest) = word ++ spaced (collapseChars rest) := by
  have split : words (word ++ rest) = word :: words rest := by
    unfold words
    change runs isSolid (word ++ rest) = word :: runs isSolid rest
    rw [runs_append_of_beginsCut word cut, runs_of_isRun isRun, List.singleton_append]
  rw [collapseChars, split, intercalate_cons fun _ => isRun_of_mem_words]
  rfl

theorem isRun_singleton {head : Char} (solid : isBlank head = false) : IsRun isSolid [head] :=
  ⟨List.cons_ne_nil _ _, fun _ member => by
    rw [List.mem_singleton.mp member]
    exact isSolid_eq_true.mpr solid⟩

theorem collapseChars_solid_cut {head : Char} (solid : isBlank head = false) {tail : List Char}
    (cut : BeginsCut isSolid tail) :
    collapseChars (head :: tail) = head :: spaced (collapseChars tail) :=
  collapseChars_word_append (isRun_singleton solid) cut

theorem collapseChars_solid_kept {head : Char} (solid : isBlank head = false) {tail : List Char}
    (begins : BeginsKept isSolid tail) :
    collapseChars (head :: tail) = head :: collapseChars tail := by
  rcases exists_word_append begins with ⟨word, rest, rfl, isRun, cut⟩
  have longer : IsRun isSolid (head :: word) :=
    ⟨List.cons_ne_nil _ _, List.forall_mem_cons.mpr ⟨isSolid_eq_true.mpr solid, isRun.kept⟩⟩
  rw [collapseChars_word_append isRun cut, ← List.cons_append,
    collapseChars_word_append longer cut, List.cons_append]

theorem beginsCut_or_beginsKept (keep : Char -> Bool) (characters : List Char) :
    BeginsCut keep characters ∨ BeginsKept keep characters := by
  cases characters with
  | nil => exact .inl fun _ => nofun
  | cons head tail =>
      cases kept : keep head with
      | false => exact .inl fun _ first => by rw [← Option.some.inj first, kept]
      | true => exact .inr ⟨head, rfl, kept⟩

/-! ## Sizes, ends and parts -/

/-- Collapsing makes no text longer. -/
theorem length_collapseChars_le (characters : List Char) :
    (collapseChars characters).length ≤ characters.length := by
  -- In front of a blank there is room for the space, which the induction has to know.
  have both : (collapseChars characters).length ≤ characters.length ∧
      (BeginsCut isSolid characters →
        (spaced (collapseChars characters)).length ≤ characters.length) := by
    induction characters with
    | nil => exact ⟨le_refl 0, fun _ => le_refl 0⟩
    | cons head tail inductionHypothesis =>
        cases blank : isBlank head with
        | true =>
            have room := length_spaced_le (collapseChars tail)
            rw [collapseChars_blank_cons blank, List.length_cons]
            exact ⟨Nat.le_succ_of_le inductionHypothesis.1, fun _ =>
              room.trans (Nat.succ_le_succ inductionHypothesis.1)⟩
        | false =>
            refine ⟨?_, fun cut => ?_⟩
            · rcases beginsCut_or_beginsKept isSolid tail with cut | kept
              · rw [collapseChars_solid_cut blank cut]
                exact Nat.succ_le_succ (inductionHypothesis.2 cut)
              · rw [collapseChars_solid_kept blank kept]
                exact Nat.succ_le_succ inductionHypothesis.1
            · have solid := isSolid_eq_false.mp (cut head rfl)
              rw [blank] at solid
              cases solid
  exact both.1

theorem head?_collapseChars {head : Char} (solid : isBlank head = false) (tail : List Char) :
    (collapseChars (head :: tail)).head? = some head := by
  rcases beginsCut_or_beginsKept isSolid tail with cut | kept
  · rw [collapseChars_solid_cut solid cut, List.head?_cons]
  · rw [collapseChars_solid_kept solid kept, List.head?_cons]

/-- The text that the end of a text collapses to is the end of what the text collapses to. -/
theorem collapseChars_suffix (before characters : List Char) :
    collapseChars characters <:+ collapseChars (before ++ characters) := by
  induction before with
  | nil => exact List.suffix_rfl
  | cons head tail inductionHypothesis =>
      rw [List.cons_append]
      cases blank : isBlank head with
      | true =>
          rw [collapseChars_blank_cons blank]
          exact inductionHypothesis
      | false =>
          rcases beginsCut_or_beginsKept isSolid (tail ++ characters) with cut | kept
          · rw [collapseChars_solid_cut blank cut]
            apply inductionHypothesis.trans
            cases collapseChars (tail ++ characters) with
            | nil => exact List.nil_suffix
            | cons _ _ => exact ⟨[head, ' '], rfl⟩
          · rw [collapseChars_solid_kept blank kept]
            exact inductionHypothesis.trans (List.suffix_cons head _)

theorem collapseChars_concat_ne_nil (start : List Char) {last : Char}
    (solid : isBlank last = false) : collapseChars (start ++ [last]) ≠ [] := by
  intro empty
  have suffix := collapseChars_suffix start [last]
  have first := head?_collapseChars solid []
  rw [empty, List.suffix_nil] at suffix
  rw [suffix] at first
  cases first

/-- A text that is put together inside a word is collapsed part by part. -/
theorem collapseChars_append (start : List Char) {last : Char} (solid : isBlank last = false)
    {second : List Char} (begins : BeginsKept isSolid second) :
    collapseChars (start ++ last :: second) =
      collapseChars (start ++ [last]) ++ collapseChars second := by
  induction start with
  | nil =>
      have alone : collapseChars [last] = last :: spaced (collapseChars []) :=
        collapseChars_solid_cut solid fun _ => nofun
      rw [List.nil_append, List.nil_append, collapseChars_solid_kept solid begins, alone]
      rfl
  | cons head tail inductionHypothesis =>
      have sameHead : (tail ++ last :: second).head? = (tail ++ [last]).head? := by
        cases tail <;> rfl
      rw [List.cons_append, List.cons_append]
      cases blank : isBlank head with
      | true =>
          rw [collapseChars_blank_cons blank, collapseChars_blank_cons blank, inductionHypothesis]
      | false =>
          rcases beginsCut_or_beginsKept isSolid (tail ++ [last]) with cut | kept
          · have cutToo : BeginsCut isSolid (tail ++ last :: second) := by
              rw [BeginsCut, sameHead]
              exact cut
            rw [collapseChars_solid_cut blank cut, collapseChars_solid_cut blank cutToo,
              inductionHypothesis, spaced_append (collapseChars_concat_ne_nil tail solid),
              List.cons_append]
          · have keptToo : BeginsKept isSolid (tail ++ last :: second) := by
              rw [BeginsKept, sameHead]
              exact kept
            rw [collapseChars_solid_kept blank kept, collapseChars_solid_kept blank keptToo,
              inductionHypothesis, List.cons_append]

theorem IsTrimmed.beginsKept {first : List Char} (trimmed : IsTrimmed first)
    (notEmpty : first ≠ []) (rest : List Char) : BeginsKept isSolid (first ++ rest) := by
  cases first with
  | nil => exact absurd rfl notEmpty
  | cons head tail => exact ⟨head, rfl, isSolid_eq_true.mpr (trimmed.start head rfl)⟩

/-- What stands in front of a word without a blank between them is collapsed on its own. -/
theorem IsTrimmed.collapseChars_append {first : List Char} (trimmed : IsTrimmed first)
    (notEmpty : first ≠ []) {second : List Char} (begins : BeginsKept isSolid second) :
    collapseChars (first ++ second) = collapseChars first ++ collapseChars second := by
  rcases List.eq_nil_or_concat' first with rfl | ⟨start, last, rfl⟩
  · exact absurd rfl notEmpty
  · have solid := trimmed.stop last List.getLast?_concat
    rw [List.append_assoc, List.singleton_append, Text.collapseChars_append start solid begins]

/-! ## The words of a text -/

theorem words_nil : words [] = [] :=
  runs_nil

theorem words_trimChars (characters : List Char) :
    words (trimChars characters) = words characters := by
  have atStart : words (characters.dropWhile isBlank) = words characters := by
    induction characters with
    | nil => rfl
    | cons head tail inductionHypothesis =>
        rw [List.dropWhile_cons]
        split
        · rename_i blank
          rw [inductionHypothesis]
          exact (runs_separator_cons (isSolid_eq_false.mpr blank) tail).symm
        · rfl
  rw [← atStart, trimChars, dropEndsWhile]
  generalize characters.dropWhile isBlank = rest
  change words (rest.rdropWhile isBlank) = words rest
  induction rest using List.reverseRecOn with
  | nil => rfl
  | append_singleton start last inductionHypothesis =>
      by_cases blank : isBlank last = true
      · have cut := runs_append_separator start [] (isSolid_eq_false.mpr blank)
        rw [runs_nil, List.append_nil] at cut
        rw [List.rdropWhile_concat_pos _ _ _ blank, inductionHypothesis]
        exact cut.symm
      · rw [List.rdropWhile_concat_neg _ _ _ blank]

/-- Words that are put together one space apart are the words of the result. -/
theorem words_intercalate {separate : List (List Char)}
    (areRuns : ∀ word ∈ separate, IsRun isSolid word) :
    words ([' '].intercalate separate) = separate := by
  induction separate with
  | nil => rfl
  | cons word rest inductionHypothesis =>
      have later : ∀ other ∈ rest, IsRun isSolid other := fun other member =>
        areRuns other (List.mem_cons_of_mem word member)
      have same := inductionHypothesis later
      have cut : BeginsCut isSolid (spaced ([' '].intercalate rest)) ∧
          words (spaced ([' '].intercalate rest)) = words ([' '].intercalate rest) := by
        cases [' '].intercalate rest with
        | nil => exact ⟨fun _ => nofun, rfl⟩
        | cons head tail =>
            refine ⟨fun first begins => ?_, runs_separator_cons rfl (head :: tail)⟩
            rw [← Option.some.inj begins]
            rfl
      rw [intercalate_cons later]
      refine (runs_append_of_beginsCut word cut.1).trans ?_
      rw [runs_of_isRun (areRuns word List.mem_cons_self)]
      exact congrArg (word :: ·) (cut.2.trans same)

/-- Texts collapse to the same exactly when they have the same words. -/
theorem collapseChars_eq_iff {first second : List Char} :
    collapseChars first = collapseChars second ↔ words first = words second := by
  constructor
  · have kept : ∀ characters, words (collapseChars characters) = words characters :=
      fun _ => words_intercalate fun _ => isRun_of_mem_words
    intro same
    rw [← kept first, same, kept second]
  · intro same
    rw [collapseChars, same]
    rfl

/-- The first word of a text stands at the start of the trimmed text. -/
theorem head?_trimChars (characters : List Char) :
    (trimChars characters).head? = (words characters).head?.bind List.head? := by
  have trimmed := isTrimmed_trimChars characters
  rw [← words_trimChars]
  by_cases blank : trimChars characters = []
  · rw [blank]
    rfl
  · have begins := trimmed.beginsKept blank []
    rw [List.append_nil] at begins
    rcases exists_word_append begins with ⟨word, rest, whole, isRun, cut⟩
    have split : words (word ++ rest) = word :: words rest := by
      refine (runs_append_of_beginsCut word cut).trans ?_
      rw [runs_of_isRun isRun]
      rfl
    rw [whole, split, List.head?_append_of_ne_nil _ isRun.notEmpty]
    rfl

theorem words_eq_nil {characters : List Char} :
    words characters = [] ↔ trimChars characters = [] := by
  constructor
  · intro none
    have first := head?_trimChars characters
    rw [none] at first
    exact List.head?_eq_none_iff.mp first
  · intro blank
    rw [← words_trimChars, blank, words_nil]

/-! ## Cutting -/

theorem truncateChars_of_length_le {limit : Nat} {characters : List Char}
    (short : characters.length ≤ limit) : truncateChars limit characters = characters := by
  rw [truncateChars, if_pos short]

theorem length_truncateChars_le {limit : Nat} (room : 3 ≤ limit) (characters : List Char) :
    (truncateChars limit characters).length ≤ limit := by
  unfold truncateChars
  split
  · assumption
  · have cut := (dropEndWhile_isPrefix isBlank (characters.take (limit - 3))).length_le
    have taken := List.length_take_le (limit - 3) characters
    rw [List.length_append]
    change _ + 3 ≤ limit
    omega

/-- Cutting keeps a text collapsed. -/
theorem IsCollapsed.truncateChars (limit : Nat) {characters : List Char}
    (collapsed : IsCollapsed characters) : IsCollapsed (truncateChars limit characters) := by
  unfold Text.truncateChars
  split
  · exact collapsed
  have kept := (dropEndWhile_isPrefix isBlank (characters.take (limit - 3))).trans
    (List.take_prefix (limit - 3) characters)
  generalize dropEndWhile isBlank (characters.take (limit - 3)) = cut at kept
  rcases kept with ⟨more, rfl⟩
  have dots : ∀ character ∈ ['.', '.', '.'], isBlank character = false := by
    simp only [List.forall_mem_cons]
    exact ⟨rfl, rfl, rfl, fun _ => nofun⟩
  refine ⟨⟨?_, ?_⟩, ?_, ?_⟩
  · intro head first
    cases cut with
    | nil => exact dots head (List.mem_of_mem_head? first)
    | cons other rest => exact collapsed.start head first
  · intro last final
    rw [List.getLast?_append_of_ne_nil _ (List.cons_ne_nil _ _)] at final
    exact dots last (List.mem_of_getLast? final)
  · intro character member blank
    rcases List.mem_append.mp member with inCut | dot
    · exact collapsed.spaces character (List.mem_append_left more inCut) blank
    · rw [dots character dot] at blank
      cases blank
  · rw [List.isChain_append]
    refine ⟨(List.isChain_append.mp collapsed.single).1, by decide, ?_⟩
    intro _ _ dot first _
    exact dots dot (List.mem_of_mem_head? first)

end Text
end Commonplace
