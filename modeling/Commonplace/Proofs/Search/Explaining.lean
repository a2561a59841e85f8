import Commonplace.Proofs.Text.Collapsing
import Commonplace.Search.Explanation
import Mathlib.Data.List.DropRight

namespace Commonplace
namespace Explanation

/-!
# What an explanation shows

An explanation is one line of bounded length.  Where the query occurs in the body, the line shows
its first occurrence between brackets, with the text on both sides of it.  A query of at most 52
characters leaves room for all of that, so nothing of the line is cut off.
-/

/-! ## The first occurrence -/

/-- An occurrence of a word in a text, up to case: what stands before it, the occurrence itself, and
what follows. -/
structure Occurrence (word text before found after : List Char) : Prop where
  whole : text = before ++ found ++ after
  same : found.map Text.lowerFull = word.map Text.lowerFull

/-- An occurrence that no other one begins before. -/
structure FirstOccurrence (word text before found after : List Char) : Prop extends
    Occurrence word text before found after where
  first : ∀ earlier other rest, Occurrence word text earlier other rest →
    before.length ≤ earlier.length

theorem Occurrence.length_found {word text before found after : List Char}
    (occurrence : Occurrence word text before found after) : found.length = word.length := by
  have lengths := congrArg List.length occurrence.same
  rw [List.length_map, List.length_map] at lengths
  exact lengths

theorem beginsWith_iff (word text : List Char) :
    beginsWith word text = true ↔ ∃ found after, Occurrence word text [] found after := by
  induction word generalizing text with
  | nil => exact ⟨fun _ => ⟨[], text, rfl, rfl⟩, fun _ => rfl⟩
  | cons letter rest inductionHypothesis =>
      cases text with
      | nil =>
          constructor
          · nofun
          · rintro ⟨found, after, occurrence⟩
            have empty : found = [] := (List.append_eq_nil_iff.mp occurrence.whole.symm).1
            have lengths := occurrence.length_found
            rw [empty] at lengths
            cases lengths
      | cons head tail =>
          rw [beginsWith, Bool.and_eq_true, inductionHypothesis tail, sameLetter, beq_iff_eq]
          constructor
          · rintro ⟨same, found, after, occurrence⟩
            refine ⟨head :: found, after, ?_, ?_⟩
            · rw [occurrence.whole]
              rfl
            · rw [List.map_cons, List.map_cons, same, occurrence.same]
          · rintro ⟨found, after, occurrence⟩
            cases found with
            | nil => cases occurrence.length_found
            | cons other more =>
                have whole := List.cons.inj occurrence.whole
                have same := List.cons.inj occurrence.same
                refine ⟨?_, more, after, whole.2, same.2⟩
                rw [whole.1]
                exact same.1

/-- Where a word occurs, its first occurrence is found. -/
theorem exists_first_of_occurrence {word text before found after : List Char} (notEmpty : word ≠ [])
    (occurrence : Occurrence word text before found after) :
    ∃ before found after, FirstOccurrence word text before found after ∧
      findWord word text = some before.length := by
  induction text generalizing before with
  | nil =>
      have lengths := occurrence.length_found
      have parts := List.append_eq_nil_iff.mp occurrence.whole.symm
      rw [(List.append_eq_nil_iff.mp parts.1).2] at lengths
      exact absurd (List.length_eq_zero_iff.mp lengths.symm) notEmpty
  | cons head tail inductionHypothesis =>
      rw [findWord]
      by_cases here : beginsWith word (head :: tail) = true
      · rcases (beginsWith_iff word (head :: tail)).mp here with ⟨start, rest, begins⟩
        rw [if_pos here]
        exact ⟨[], start, rest, ⟨begins, fun _ _ _ _ => Nat.zero_le _⟩, rfl⟩
      · -- An occurrence that does not begin here is one in the tail.
        have shifted : ∀ {earlier other rest : List Char},
            Occurrence word (head :: tail) earlier other rest →
              ∃ start, earlier = head :: start ∧ Occurrence word tail start other rest := by
          intro earlier other rest later
          cases earlier with
          | nil => exact absurd ((beginsWith_iff word (head :: tail)).mpr ⟨other, rest, later⟩) here
          | cons first start =>
              have whole := List.cons.inj later.whole
              exact ⟨start, by rw [whole.1], whole.2, later.same⟩
        rcases shifted occurrence with ⟨start, rfl, inTail⟩
        rcases inductionHypothesis inTail with ⟨lead, shown, rest, leftmost, position⟩
        refine ⟨head :: lead, shown, rest, ⟨⟨?_, leftmost.same⟩, ?_⟩, ?_⟩
        · rw [leftmost.whole]
          rfl
        · intro earlier other more later
          rcases shifted later with ⟨origin, rfl, inTail⟩
          exact Nat.succ_le_succ (leftmost.first origin other more inTail)
        · rw [if_neg here, position]
          rfl

/-! ## The line -/

/-- The dots that stand where a text was cut. -/
def dotsWhere (cut : Prop) [Decidable cut] : List Char :=
  if cut then ['.', '.', '.'] else []

theorem length_dotsWhere_le (cut : Prop) [Decidable cut] : (dotsWhere cut).length ≤ 3 := by
  unfold dotsWhere
  split
  · exact le_refl 3
  · exact Nat.zero_le 3

/-- An occurrence between brackets, with at most 60 characters on each side of it. -/
def window (before found after : List Char) : List Char :=
  dotsWhere (60 < before.length) ++ before.rtake 60 ++ '[' :: found ++ ']' :: after.take 60 ++
    dotsWhere (60 < after.length)

theorem bracketed_eq_window (before found after : List Char) :
    bracketed (before ++ found ++ after) before.length found.length =
      window before found after := by
  have body : (before ++ found ++ after).length =
      before.length + found.length + after.length := by
    rw [List.length_append, List.length_append]
  have front : (before ++ found ++ after).take before.length = before := by
    rw [List.append_assoc, List.take_left]
  have middle : ((before ++ found ++ after).drop before.length).take found.length = found := by
    rw [List.append_assoc, List.drop_left, List.take_left]
  have back : ((before ++ found ++ after).take (min (before.length + found.length + context)
        (before ++ found ++ after).length)).drop (before.length + found.length) =
      after.take 60 := by
    rw [List.drop_take, ← List.length_append, List.drop_left, List.take_eq_take_iff, context]
    rw [List.length_append]
    omega
  have cutBefore : 0 < before.length - context ↔ 60 < before.length := Nat.sub_pos_iff_lt
  have cutAfter : min (before.length + found.length + context) (before ++ found ++ after).length <
      (before ++ found ++ after).length ↔ 60 < after.length := by
    rw [body, context]
    omega
  rw [bracketed]
  simp only [front, middle, back, cutBefore, cutAfter]
  rfl

theorem length_window_le (before found after : List Char) :
    (window before found after).length ≤ 128 + found.length := by
  have left := length_dotsWhere_le (60 < before.length)
  have right := length_dotsWhere_le (60 < after.length)
  simp only [window, List.length_append, List.length_cons, List.rtake, List.length_drop,
    List.length_take]
  omega

theorem Occurrence.isTrimmed_found {word text before found after : List Char}
    (occurrence : Occurrence word text before found after) (trimmed : Text.IsTrimmed word) :
    Text.IsTrimmed found := by
  constructor
  · intro head first
    have heads := congrArg List.head? occurrence.same
    rw [List.head?_map, List.head?_map, Option.mem_def.mp first] at heads
    rcases Option.map_eq_some_iff.mp heads.symm with ⟨letter, begins, same⟩
    rw [← Text.isBlank_of_lowerFull_eq same]
    exact trimmed.start letter begins
  · intro last final
    have lasts := congrArg List.getLast? occurrence.same
    rw [List.getLast?_map, List.getLast?_map, Option.mem_def.mp final] at lasts
    rcases Option.map_eq_some_iff.mp lasts.symm with ⟨letter, stops, same⟩
    rw [← Text.isBlank_of_lowerFull_eq same]
    exact trimmed.stop letter stops

/-- The brackets stand around the collapsed occurrence. -/
theorem brackets_infix {found : List Char} (notEmpty : found ≠ []) (trimmed : Text.IsTrimmed found)
    (before after : List Char) :
    '[' :: Text.collapseChars found ++ [']'] <:+:
      Text.collapseChars (before ++ '[' :: (found ++ ']' :: after)) := by
  have opening : Text.isBlank '[' = false := by decide
  have closing : Text.isBlank ']' = false := by decide
  have beginsClosing : Text.BeginsKept Text.isSolid (']' :: after) :=
    ⟨']', rfl, Text.isSolid_eq_true.mpr closing⟩
  have opened : ['['] <:+ Text.collapseChars (before ++ ['[']) :=
    Text.collapseChars_suffix before ['[']
  have closed := Text.head?_collapseChars closing after
  rcases opened with ⟨lead, opened⟩
  rcases List.head?_eq_some_iff.mp closed with ⟨rest, closed⟩
  rw [Text.collapseChars_append before opening (trimmed.beginsKept notEmpty _),
    trimmed.collapseChars_append notEmpty beginsClosing, closed, ← opened]
  exact ⟨lead, rest, by simp⟩

/-- An explanation of a hit whose query occurs in the body shows all of the window. -/
theorem highlight_eq {body query before found after : List Char}
    (notEmpty : Text.trimChars query ≠ []) (short : (Text.trimChars query).length ≤ 52)
    (first : FirstOccurrence (Text.trimChars query) body before found after)
    (position : findWord (Text.trimChars query) body = some before.length) :
    highlight body query = some (Text.collapseChars (window before found after)) := by
  have listed : firstFound body (Text.trimChars query :: Text.words (Text.trimChars query)) =
      some (before.length, found.length) := by
    rw [firstFound, List.filter_cons_of_pos (by simpa using notEmpty), List.findSome?_cons,
      position, first.length_found]
    rfl
  have fits : (Text.collapseChars (window before found after)).length ≤ matchLimit := by
    have size := length_window_le before found after
    have collapsed := Text.length_collapseChars_le (window before found after)
    rw [first.length_found] at size
    rw [matchLimit]
    omega
  rw [highlight, listed, Option.map_some, first.whole, bracketed_eq_window,
    Text.truncateChars_of_length_le fits]

theorem length_leadLine_le (note : Note) : (leadLine note).length ≤ leadLimit :=
  Text.length_truncateChars_le (by decide) _

theorem isCollapsed_leadLine (note : Note) : Text.IsCollapsed (leadLine note) :=
  (Text.isCollapsed_collapseChars _).truncateChars leadLimit

/-- What the match of a query is shown by is a collapsed text of bounded length. -/
theorem highlight_bounded {body query shown : List Char}
    (found : highlight body query = some shown) :
    shown.length ≤ matchLimit ∧ Text.IsCollapsed shown := by
  rcases Option.map_eq_some_iff.mp found with ⟨place, _, rfl⟩
  exact ⟨Text.length_truncateChars_le (by decide) _,
    (Text.isCollapsed_collapseChars _).truncateChars matchLimit⟩

theorem length_nothing : nothing.toList.length = 20 := by
  decide +kernel

theorem isCollapsed_nothing : Text.IsCollapsed nothing.toList := by
  have kept : Text.collapseChars nothing.toList = nothing.toList := by decide +kernel
  rw [← kept]
  exact Text.isCollapsed_collapseChars _

theorem explain_of_blank {note : Note} (blank : Text.isBlankText note.body = true) (query : String)
    (matchType : MatchType) : explain note query matchType = nothing :=
  if_pos blank

theorem explain_semantic {note : Note} (written : Text.isBlankText note.body = false)
    (query : String) : (explain note query .semantic).toList = leadLine note := by
  rw [explain, written, if_neg Bool.false_ne_true, String.toList_ofList]
  rfl

theorem explain_match {note : Note} (written : Text.isBlankText note.body = false)
    (query : String) {matchType : MatchType} (others : matchType ≠ .semantic) :
    (explain note query matchType).toList =
      (highlight note.body.toList query.toList).getD (leadLine note) := by
  rw [explain, written, if_neg Bool.false_ne_true, String.toList_ofList,
    if_neg (by simpa using others)]

theorem explain_bounded (note : Note) (query : String) (matchType : MatchType) :
    (explain note query matchType).toList.length ≤
        (if matchType = .semantic then 160 else 180) ∧
      Text.IsCollapsed (explain note query matchType).toList := by
  have roomy : 160 ≤ if matchType = .semantic then 160 else 180 := by split <;> decide
  cases written : Text.isBlankText note.body with
  | true =>
      have size := length_nothing
      rw [explain_of_blank written]
      exact ⟨by omega, isCollapsed_nothing⟩
  | false =>
      by_cases similar : matchType = .semantic
      · rw [similar, explain_semantic written]
        exact ⟨length_leadLine_le note, isCollapsed_leadLine note⟩
      · rw [explain_match written query similar]
        cases found : highlight note.body.toList query.toList with
        | none => exact ⟨(length_leadLine_le note).trans roomy, isCollapsed_leadLine note⟩
        | some line =>
            rw [if_neg similar]
            exact highlight_bounded found

/-- An explanation is one line: at most 160 characters for a hit by similarity and 180 for others,
without blanks except single spaces between words.

Where the query without the blanks around it has at most 52 characters and occurs in a body that is
not blank, the explanation of any other hit shows its first occurrence, collapsed, between brackets.
Nothing of the line is cut off: it is the window around that occurrence, collapsed. -/
theorem explanation_shows_first_match (note : Note) (query : String) (matchType : MatchType) :
    let shown := (explain note query matchType).toList
    let word := Text.trimChars query.toList
    (shown.length ≤ (if matchType = .semantic then 160 else 180) ∧ Text.IsCollapsed shown) ∧
      (Text.isBlankText note.body = false → matchType ≠ .semantic → word ≠ [] →
        word.length ≤ 52 →
        (∃ before found after, Occurrence word note.body.toList before found after) →
        ∃ before found after, FirstOccurrence word note.body.toList before found after ∧
          shown = Text.collapseChars (window before found after) ∧
          '[' :: Text.collapseChars found ++ [']'] <:+: shown) := by
  intro shown word
  refine ⟨explain_bounded note query matchType, ?_⟩
  rintro written others notEmpty short ⟨_, _, _, occurrence⟩
  rcases exists_first_of_occurrence notEmpty occurrence with
    ⟨before, found, after, first, position⟩
  have line : shown = Text.collapseChars (window before found after) := by
    have highlighted := highlight_eq notEmpty short first position
    change (explain note query matchType).toList = _
    rw [explain_match written query others, highlighted, Option.getD_some]
  refine ⟨before, found, after, first, line, ?_⟩
  have foundNotEmpty : found ≠ [] := by
    rintro rfl
    exact notEmpty (List.length_eq_zero_iff.mp first.length_found.symm)
  have trimmed := first.isTrimmed_found (Text.isTrimmed_trimChars query.toList)
  have brackets := brackets_infix foundNotEmpty trimmed
    (dotsWhere (60 < before.length) ++ before.rtake 60)
    (after.take 60 ++ dotsWhere (60 < after.length))
  rw [line]
  simpa only [window, List.append_assoc, List.cons_append] using brackets

/-- The match stands on two lines of the body, and the body is cut on one side. -/
theorem meeting_is_shown :
    let note : Note := { Note.ofPath "a.md" with body :=
      "The long and dull notes of the second week, which nobody reads to the end:\n" ++
        "a Meeting\nrecap, and more." }
    let query := " meeting\nrecap"
    let word := "meeting\nrecap".toList
    Text.isBlankText note.body = false ∧ Text.trimChars query.toList = word ∧
      Occurrence word note.body.toList (note.body.toList.take 77)
        "Meeting\nrecap".toList ", and more.".toList ∧
      ∃ before found after, FirstOccurrence word note.body.toList before found after ∧
        (explain note query .exact).toList = Text.collapseChars (window before found after) ∧
        '[' :: Text.collapseChars found ++ [']'] <:+: (explain note query .exact).toList := by
  intro note query word
  have written : Text.isBlankText note.body = false := by decide +kernel
  have trimmed : Text.trimChars query.toList = word := by decide +kernel
  have occurrence : Occurrence word note.body.toList (note.body.toList.take 77)
      "Meeting\nrecap".toList ", and more.".toList :=
    ⟨by decide +kernel, by decide +kernel⟩
  refine ⟨written, trimmed, occurrence, ?_⟩
  have shows := (explanation_shows_first_match note query .exact).2 written (by decide)
  rw [trimmed] at shows
  exact shows (by decide +kernel) (by decide +kernel) ⟨_, _, _, occurrence⟩

end Explanation
end Commonplace
