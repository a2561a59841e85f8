import Commonplace.Glob.Reader
import Commonplace.Proofs.Text.Ascii
import Commonplace.Proofs.Text.Matching
import Commonplace.Proofs.Text.Trimming
import Commonplace.Query.Expr
import Mathlib.Data.List.Chain
import Mathlib.Data.List.TakeWhile

namespace Commonplace
namespace Glob

/-!
# Patterns of stars and question marks

A pattern without brackets, braces and backslashes, in which no star follows another, is read
character by character: every character gives one part.  Such a pattern stays one when the stars at
its ends are brought into the shape of a kind.
-/

/-! ## Simple patterns -/

/-- Whether a character is ASCII and opens, closes or escapes nothing in a pattern. -/
def IsPlain (character : Char) : Prop :=
  character.toNat < 128 ∧ character ∉ ['[', ']', '\x7b', '\x7d', '\\']

instance (character : Char) : Decidable (IsPlain character) :=
  inferInstanceAs (Decidable (_ ∧ _))

/-- Whether no star of a pattern follows another. -/
def StarsApart (pattern : List Char) : Prop :=
  pattern.IsChain fun first second => ¬ (first = '*' ∧ second = '*')

instance (pattern : List Char) : Decidable (StarsApart pattern) :=
  inferInstanceAs (Decidable (pattern.IsChain _))

/-- Whether a pattern is made of plain characters, with no star after another. -/
structure IsSimple (pattern : List Char) : Prop where
  plain : ∀ character ∈ pattern, IsPlain character
  apart : StarsApart pattern

instance (pattern : List Char) : Decidable (IsSimple pattern) :=
  decidable_of_iff (pattern.all (fun character => decide (IsPlain character)) ∧ StarsApart pattern)
    ⟨fun parts => ⟨fun character member =>
        of_decide_eq_true (List.all_eq_true.mp parts.1 character member), parts.2⟩,
      fun simple => ⟨List.all_eq_true.mpr fun character member =>
        decide_eq_true (simple.plain character member), simple.apart⟩⟩

theorem IsSimple.ascii {pattern : List Char} (simple : IsSimple pattern) : Text.IsAscii pattern :=
  fun character member => (simple.plain character member).1

theorem IsSimple.of_infix {part pattern : List Char} (simple : IsSimple pattern)
    (within : part <:+: pattern) : IsSimple part :=
  ⟨fun character member => simple.plain character (within.subset member),
    simple.apart.infix within⟩

/-! ## Reading -/

/-- The part that a character of a simple pattern stands for. -/
def partOf (character : Char) : Part :=
  if character == '*' then .anyBytes
  else if character == '?' then .anyByte
  else .byte (Text.byteOf character)

theorem bytesOf_of_ascii {character : Char} (ascii : character.toNat < 128) :
    bytesOf character = [Text.byteOf character] := by
  have single : Text.IsAscii (String.singleton character).toList := by
    rw [String.toList_singleton]
    intro other member
    rw [List.mem_singleton.mp member]
    exact ascii
  rw [bytesOf, Text.bytes_of_ascii single, String.toList_singleton]
  rfl

/-- The characters that open or close a group, or take the next character as it is. -/
def groupMarks : List Char :=
  ['[', '\x7b', '\x7d', '\\']

/-- Reading a character without a meaning of its own adds its bytes. -/
theorem readParts_literal (budget : Nat) {state : ReadState} (noBraces : state.braces = [])
    {character : Char} (noMark : character ∉ groupMarks) (notStar : character ≠ '*')
    (notQuestion : character ≠ '?') (rest : List Char) :
    readParts (budget + 1) state (character :: rest) =
      readParts budget (state.pushChar character) rest := by
  by_cases isComma : character = ','
  · subst isComma
    have comma : state.comma = state.pushChar ',' := by
      rw [ReadState.comma, noBraces]
    rw [← comma]
    rfl
  · simp only [groupMarks, List.mem_cons, List.not_mem_nil, or_false, not_or] at noMark
    rw [readParts]
    all_goals simp_all

/-- Reading a plain character that is neither a star nor a question mark adds its byte. -/
theorem readParts_plain (budget : Nat) {state : ReadState} (noBraces : state.braces = [])
    {character : Char} (plain : IsPlain character) (notStar : character ≠ '*')
    (notQuestion : character ≠ '?') (rest : List Char) :
    readParts (budget + 1) state (character :: rest) =
      readParts budget (state.push (partOf character) character) rest := by
  have added : state.pushChar character = state.push (partOf character) character := by
    rw [ReadState.pushChar, bytesOf_of_ascii plain.1, partOf, if_neg (by simpa using notStar),
      if_neg (by simpa using notQuestion)]
    rfl
  have noMark : character ∉ groupMarks := by
    have outside := plain.2
    simp only [List.mem_cons, List.not_mem_nil, or_false, not_or] at outside
    simp [groupMarks, outside]
  rw [readParts_literal budget noBraces noMark notStar notQuestion, added]

theorem readParts_of_simple {pattern : List Char} (simple : IsSimple pattern) :
    ∀ (budget : Nat) (state : ReadState), state.braces = [] -> pattern.length < budget ->
      readParts budget state pattern = .ok (state.current.reverse ++ pattern.map partOf) := by
  induction pattern with
  | nil =>
      intro budget state noBraces enough
      cases budget with
      | zero => cases enough
      | succ budget =>
          rw [readParts, noBraces]
          simp
  | cons head tail inductionHypothesis =>
      intro budget state noBraces enough
      cases budget with
      | zero => cases enough
      | succ budget =>
          have tailSimple : IsSimple tail := simple.of_infix (List.suffix_cons head tail).isInfix
          have pushed : ∀ part last,
              readParts budget (state.push part last) tail =
                .ok (state.current.reverse ++ part :: tail.map partOf) := by
            intro part last
            rw [inductionHypothesis tailSimple budget (state.push part last) noBraces
              (Nat.lt_of_succ_lt_succ enough)]
            simp [ReadState.push]
          rw [List.map_cons]
          by_cases isStar : head = '*'
          · -- No star follows, so this one is not read as the first of two.
            subst isStar
            cases tail with
            | nil => exact pushed .anyBytes '*'
            | cons next more =>
                have notStar : next ≠ '*' := by
                  rintro rfl
                  have chain := simple.apart
                  rw [StarsApart, List.isChain_cons_cons] at chain
                  exact chain.1 ⟨rfl, rfl⟩
                rw [readParts]
                · exact pushed .anyBytes '*'
                · intro other same
                  exact notStar (List.cons.inj same).1
          · by_cases isQuestion : head = '?'
            · subst isQuestion
              exact pushed .anyByte '?'
            · have plain := simple.plain head List.mem_cons_self
              rw [readParts_plain budget noBraces plain isStar isQuestion, pushed]

/-- A simple pattern is read character by character. -/
theorem read_of_simple {pattern : List Char} (simple : IsSimple pattern) :
    read (String.ofList pattern) = .ok (pattern.map partOf) := by
  have parts := readParts_of_simple simple (pattern.length + 1) ⟨[], [], none⟩ rfl
    (Nat.lt_succ_self _)
  rw [read, String.toList_ofList, parts]
  rfl

/-! ## Matching -/

/-- The rests of a text after a beginning that a character of a pattern matches, without regard to
the case of letters. -/
def starRests (character : Char) (text : List Char) : List (List Char) :=
  if character == '*' then Text.ends text
  else if character == '?' then Text.endAfter (fun _ => true) text
  else Text.endAfter (fun other => other.toLower == character.toLower) text

theorem suffix_of_mem_starRests {character : Char} {text rest : List Char}
    (member : rest ∈ starRests character text) : rest <:+ text := by
  unfold starRests at member
  split at member
  · exact (Text.mem_ends text rest).mp member
  · split at member <;> exact Text.suffix_of_mem_endAfter member

theorem suffix_of_mem_rests_partOf (character : Char) (text rest : List UInt8)
    (member : rest ∈ (partOf character).rests text) : rest <:+ text := by
  unfold partOf at member
  split at member
  · exact (Text.mem_ends text rest).mp member
  · split at member <;> exact Text.suffix_of_mem_endAfter member

/-- On ASCII, a part leaves the bytes of the rests that its character leaves. -/
theorem rests_partOf {character : Char} {text : List Char} (ascii : character.toNat < 128)
    (asciiText : Text.IsAscii text) :
    (partOf character).rests (text.map Text.byteOf) =
      (starRests character text).map (List.map Text.byteOf) := by
  unfold partOf starRests
  by_cases isStar : (character == '*') = true
  · rw [if_pos isStar, if_pos isStar]
    exact Text.ends_map Text.byteOf text
  · rw [if_neg isStar, if_neg isStar]
    by_cases isQuestion : (character == '?') = true
    · rw [if_pos isQuestion, if_pos isQuestion]
      apply Text.endAfter_map
      intro head member
      rfl
    · rw [if_neg isQuestion, if_neg isQuestion]
      apply Text.endAfter_map
      intro head member
      exact Text.lowerByte_beq (asciiText head member) ascii

theorem matchesBytes_partOf (pattern : List Char) (text : List UInt8) :
    matchesBytes (pattern.map partOf) text =
      (patternRests [text] (pattern.map partOf)).any List.isEmpty := by
  unfold matchesBytes
  split
  · rename_i directories
    cases pattern with
    | nil => cases directories
    | cons head tail =>
        have first := (List.cons.inj directories).1
        unfold partOf at first
        split at first
        · cases first
        · split at first <;> cases first
  · rfl

/-- On ASCII texts a simple pattern matches just when its characters do. -/
theorem matchesText_iff_matched {pattern text : List Char} (ascii : Text.IsAscii pattern)
    (asciiText : Text.IsAscii text) :
    matchesText (pattern.map partOf) (String.ofList text) = true ↔
      Text.Matched starRests pattern text := by
  have asciiChars : Text.IsAscii (String.ofList text).toList := by
    rw [String.toList_ofList]
    exact asciiText
  have suffix : ∀ part ∈ pattern.map partOf, ∀ bytes rest,
      rest ∈ Part.rests bytes part -> rest <:+ bytes := by
    intro part member bytes rest
    rcases List.mem_map.mp member with ⟨character, _, rfl⟩
    exact suffix_of_mem_rests_partOf character bytes rest
  have whole : ∀ bytes ∈ [text.map Text.byteOf], bytes <:+ text.map Text.byteOf := by
    intro bytes member
    rcases List.mem_singleton.mp member with rfl
    exact List.suffix_refl _
  rw [matchesText, Text.bytes_of_ascii asciiChars, String.toList_ofList, matchesBytes_partOf,
    Text.any_isEmpty_iff_matched (fun _ => rfl) (fun _ _ _ => rfl) _ suffix whole]
  simp only [List.mem_singleton, exists_eq_left]
  have kept : ∀ character part rest, Text.IsAscii part -> rest ∈ starRests character part ->
      Text.IsAscii rest :=
    fun character part rest holds member => holds.of_suffix (suffix_of_mem_starRests member)
  exact Text.matched_map kept (fun character part small holds => rests_partOf small holds)
    pattern text ascii asciiText

/-! ## Stars at the ends -/

open WildcardKind

theorem withoutEndStars_isPrefix (pattern : List Char) : withoutEndStars pattern <+: pattern :=
  Text.dropEndWhile_isPrefix isStar pattern

/-- A pattern that keeps none of its end stars does not end with one. -/
theorem not_star_of_mem_getLast? {pattern : List Char} {last : Char}
    (final : last ∈ (withoutEndStars pattern).getLast?) : last ≠ '*' := by
  rw [withoutEndStars, List.getLast?_reverse] at final
  have stays := Text.stays_of_mem_head?_dropWhile final
  rintro rfl
  cases stays

theorem not_star_of_mem_head? {pattern : List Char} {first : Char}
    (initial : first ∈ (pattern.dropWhile isStar).head?) : first ≠ '*' := by
  have stays := Text.stays_of_mem_head?_dropWhile initial
  rintro rfl
  cases stays

theorem mem_dropWhile_isStar {pattern : List Char} {character : Char} (member : character ∈ pattern)
    (notStar : character ≠ '*') : character ∈ pattern.dropWhile isStar := by
  rw [← List.takeWhile_append_dropWhile (p := isStar) (l := pattern)] at member
  rcases List.mem_append.mp member with dropped | kept
  · have star := List.mem_takeWhile_imp dropped
    exact absurd (beq_iff_eq.mp star) notStar
  · exact kept

theorem mem_withoutEndStars {pattern : List Char} {character : Char} (member : character ∈ pattern)
    (notStar : character ≠ '*') : character ∈ withoutEndStars pattern := by
  rw [withoutEndStars, List.mem_reverse]
  exact mem_dropWhile_isStar (List.mem_reverse.mpr member) notStar

theorem mem_normalizeChars {pattern : List Char} {character : Char} (member : character ∈ pattern)
    (notStar : character ≠ '*') (kind : WildcardKind) :
    character ∈ kind.normalizeChars pattern := by
  have startless := mem_dropWhile_isStar member notStar
  cases kind with
  | openEnd => exact List.mem_append_left _ (mem_withoutEndStars member notStar)
  | openStart => exact List.mem_cons_of_mem _ startless
  | openBoth =>
      rw [normalizeChars]
      split
      · exact member
      · exact List.mem_cons_of_mem _
          (List.mem_append_left _ (mem_withoutEndStars startless notStar))

theorem IsSimple.star_cons {pattern : List Char} (simple : IsSimple pattern)
    (noStar : ∀ first ∈ pattern.head?, first ≠ '*') : IsSimple ('*' :: pattern) := by
  constructor
  · intro character member
    rcases List.mem_cons.mp member with rfl | later
    · decide
    · exact simple.plain character later
  · rw [StarsApart, List.isChain_cons]
    exact ⟨fun first initial both => noStar first initial both.2, simple.apart⟩

theorem IsSimple.append_star {pattern : List Char} (simple : IsSimple pattern)
    (noStar : ∀ last ∈ pattern.getLast?, last ≠ '*') : IsSimple (pattern ++ ['*']) := by
  constructor
  · intro character member
    rcases List.mem_append.mp member with early | late
    · exact simple.plain character early
    · rw [List.mem_singleton.mp late]
      decide
  · rw [StarsApart, List.isChain_append]
    exact ⟨simple.apart, .singleton _, fun last final _ _ both => noStar last final both.1⟩

/-- A simple pattern with more than stars stays simple in the shape of a kind. -/
theorem IsSimple.normalizeChars {pattern : List Char} (simple : IsSimple pattern)
    (solid : ∃ character ∈ pattern, character ≠ '*') (kind : WildcardKind) :
    IsSimple (kind.normalizeChars pattern) := by
  have startless : IsSimple (pattern.dropWhile isStar) :=
    simple.of_infix (List.dropWhile_suffix isStar).isInfix
  cases kind with
  | openEnd =>
      have endless : IsSimple (withoutEndStars pattern) :=
        simple.of_infix (withoutEndStars_isPrefix pattern).isInfix
      exact endless.append_star fun last final => not_star_of_mem_getLast? final
  | openStart => exact startless.star_cons fun first initial => not_star_of_mem_head? initial
  | openBoth =>
      rw [WildcardKind.normalizeChars]
      split
      · exact simple
      · rcases solid with ⟨character, member, notStar⟩
        have prefixed := withoutEndStars_isPrefix (pattern.dropWhile isStar)
        have inner := (startless.of_infix prefixed.isInfix).append_star
          fun last final => not_star_of_mem_getLast? final
        -- Something is left between the stars, so that the one before it follows no other.
        have kept := mem_withoutEndStars (mem_dropWhile_isStar member notStar) notStar
        apply inner.star_cons
        intro first initial
        rw [List.head?_append_of_ne_nil _ (List.ne_nil_of_mem kept)] at initial
        have below := (List.singleton_prefix_iff_head?_eq_some.mpr initial).trans prefixed
        exact not_star_of_mem_head? (List.singleton_prefix_iff_head?_eq_some.mp below)

/-! ## Lower case -/

/-- Lower-casing neither makes nor changes the marks of a pattern. -/
theorem toLower_beq_mark (character : Char) {mark : Char} (isMark : mark ∈ ['*', '?']) :
    (character.toLower == mark) = (character == mark) := by
  by_cases ascii : character.toNat < 128
  · simp only [List.mem_cons, List.not_mem_nil, or_false] at isMark
    rcases isMark with rfl | rfl
    · exact Text.forall_ascii (fun character => (character.toLower == '*') = (character == '*'))
        (by decide +kernel) ascii
    · exact Text.forall_ascii (fun character => (character.toLower == '?') = (character == '?'))
        (by decide +kernel) ascii
  · rw [Text.toLower_of_not_ascii ascii]

theorem isStar_comp_toLower : isStar ∘ Char.toLower = isStar := by
  funext character
  exact toLower_beq_mark character (by decide)

theorem dropWhile_isStar_map (pattern : List Char) :
    (pattern.map Char.toLower).dropWhile isStar = (pattern.dropWhile isStar).map Char.toLower := by
  rw [List.dropWhile_map, isStar_comp_toLower]

theorem withoutEndStars_map (pattern : List Char) :
    withoutEndStars (pattern.map Char.toLower) = (withoutEndStars pattern).map Char.toLower := by
  rw [withoutEndStars, withoutEndStars, ← List.map_reverse, dropWhile_isStar_map, List.map_reverse]

theorem contains_star_map (pattern : List Char) :
    (pattern.map Char.toLower).contains '*' = pattern.contains '*' := by
  have same : (fun character => '*' == character) ∘ Char.toLower =
      fun character => '*' == character := by
    funext character
    change ('*' == character.toLower) = ('*' == character)
    rw [BEq.comm, toLower_beq_mark character (by decide), BEq.comm]
  rw [List.contains_eq_any_beq, List.contains_eq_any_beq, List.any_map, same]

/-- A pattern may be lower-cased before or after it is brought into shape. -/
theorem normalizeChars_map (kind : WildcardKind) (pattern : List Char) :
    kind.normalizeChars (pattern.map Char.toLower) =
      (kind.normalizeChars pattern).map Char.toLower := by
  cases kind with
  | openEnd =>
      rw [normalizeChars, normalizeChars, withoutEndStars_map, List.map_append]
      rfl
  | openStart =>
      rw [normalizeChars, normalizeChars, dropWhile_isStar_map, List.map_cons]
      rfl
  | openBoth =>
      rw [normalizeChars, normalizeChars, dropWhile_isStar_map, withoutEndStars_map,
        contains_star_map]
      split
      · rfl
      · rw [List.cons_append, List.cons_append, List.map_cons, List.map_append]
        rfl

end Glob
end Commonplace
