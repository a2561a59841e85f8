import Commonplace.Index.TermPattern
import Commonplace.Proofs.Glob.Stars

namespace Commonplace
namespace Index

/-!
# What patterns for terms accept

On texts without a line feed, the pattern of a beginning accepts what begins so, and the pattern of
an end what ends so.  A fixed text in front of a pattern is taken off the term first.  The pattern
of a text with stars accepts, in lower case, what the text matches as a path pattern.
-/

/-- Whether a text has no line feed. -/
def IsFree (text : List Char) : Prop :=
  ∀ character ∈ text, Piece.isFree character = true

theorem isFree_of_not_mem {text : List Char} (noBreak : '\n' ∉ text) : IsFree text := by
  intro character member
  rw [Piece.isFree, bne_iff_ne]
  rintro rfl
  exact noBreak member

theorem IsFree.of_suffix {text rest : List Char} (free : IsFree text) (suffix : rest <:+ text) :
    IsFree rest :=
  fun character member => free character (suffix.subset member)

namespace Piece

theorem suffix_of_mem_rests (piece : Piece) (text rest : List Char)
    (member : rest ∈ piece.rests text) : rest <:+ text := by
  cases piece with
  | literal character => exact Text.suffix_of_mem_endAfter member
  | anyOne => exact Text.suffix_of_mem_endAfter member
  | anyRun => exact Text.suffix_of_mem_endsWhile member

theorem mem_rests_literal (character : Char) (text rest : List Char) :
    rest ∈ (literal character).rests text ↔ text = character :: rest := by
  rw [rests, Text.mem_endAfter]
  constructor
  · rintro ⟨head, same, rfl⟩
    rw [beq_iff_eq.mp same]
  · intro same
    exact ⟨character, beq_self_eq_true character, same⟩

theorem rests_anyRun {text : List Char} (free : IsFree text) : anyRun.rests text = Text.ends text :=
  Text.endsWhile_of_all free

end Piece

namespace TermPattern

/-- Whether a pattern matches some characters. -/
abbrev Fits (pattern : TermPattern) (text : List Char) : Prop :=
  Text.Matched (fun piece text => Piece.rests text piece) pattern text

theorem accepts_iff (pattern : TermPattern) (term : String) :
    pattern.accepts term = true ↔ pattern.Fits term.toList := by
  have kept : ∀ text ∈ [term.toList], text <:+ term.toList := by
    intro text member
    rcases List.mem_singleton.mp member with rfl
    exact List.suffix_refl _
  rw [accepts, Text.any_isEmpty_iff_matched (fun _ => rfl) (fun _ _ _ => rfl) pattern
    (fun piece _ => piece.suffix_of_mem_rests) kept]
  simp only [List.mem_singleton, exists_eq_left]

/-- A fixed text in front of a pattern is taken off the text. -/
theorem fits_literals_append (characters : List Char) (pattern : TermPattern)
    (text : List Char) :
    Fits (characters.map Piece.literal ++ pattern) text ↔
      ∃ rest, text = characters ++ rest ∧ pattern.Fits rest := by
  induction characters generalizing text with
  | nil =>
      constructor
      · intro fits
        exact ⟨text, rfl, fits⟩
      · rintro ⟨rest, rfl, fits⟩
        exact fits
  | cons head tail inductionHypothesis =>
      constructor
      · rintro ⟨rest, member, fits⟩
        rw [Piece.mem_rests_literal] at member
        rcases (inductionHypothesis rest).mp fits with ⟨last, rfl, fitsLast⟩
        exact ⟨last, member, fitsLast⟩
      · rintro ⟨last, rfl, fits⟩
        refine ⟨tail ++ last, ?_, (inductionHypothesis _).mpr ⟨last, rfl, fits⟩⟩
        rw [Piece.mem_rests_literal]
        rfl

theorem fits_literals (characters text : List Char) :
    Fits (characters.map Piece.literal) text ↔ text = characters := by
  have split := fits_literals_append characters [] text
  rw [List.append_nil] at split
  rw [split]
  constructor
  · rintro ⟨rest, rfl, nothing⟩
    rw [nothing, List.append_nil]
  · rintro rfl
    exact ⟨[], (List.append_nil _).symm, rfl⟩

theorem fits_anyRun {text : List Char} (free : IsFree text) : Fits [.anyRun] text := by
  refine ⟨[], ?_, rfl⟩
  change [] ∈ Piece.anyRun.rests text
  rw [Piece.rests_anyRun free, Text.mem_ends]
  exact List.nil_suffix

/-- What the pattern of a beginning accepts begins so. -/
theorem isPrefixOf_of_accepts {start term : String}
    (accepted : (startingWith start).accepts term = true) :
    start.toList.isPrefixOf term.toList = true := by
  rw [accepts_iff, startingWith, ofText, fits_literals_append] at accepted
  rcases accepted with ⟨rest, same, _⟩
  exact List.isPrefixOf_iff_prefix.mpr ⟨rest, same.symm⟩

/-- On a text without a line feed, the pattern of a beginning means just that. -/
theorem accepts_startingWith {start term : String} (free : IsFree term.toList) :
    (startingWith start).accepts term = start.toList.isPrefixOf term.toList := by
  rw [Bool.eq_iff_iff]
  refine ⟨isPrefixOf_of_accepts, ?_⟩
  rw [accepts_iff, List.isPrefixOf_iff_prefix, startingWith, ofText, fits_literals_append]
  rintro ⟨rest, same⟩
  exact ⟨rest, same.symm, fits_anyRun (free.of_suffix ⟨start.toList, same⟩)⟩

/-- On a text without a line feed, the pattern of an end means just that. -/
theorem accepts_endingWith {stop term : String} (free : IsFree term.toList) :
    (endingWith stop).accepts term = stop.toList.isSuffixOf term.toList := by
  rw [Bool.eq_iff_iff, accepts_iff, List.isSuffixOf_iff_suffix]
  constructor
  · rintro ⟨rest, member, fits⟩
    have suffix := Piece.suffix_of_mem_rests .anyRun _ _ member
    rw [(fits_literals stop.toList rest).mp fits] at suffix
    exact suffix
  · intro suffix
    refine ⟨stop.toList, ?_, (fits_literals _ _).mpr rfl⟩
    change stop.toList ∈ Piece.anyRun.rests term.toList
    rw [Piece.rests_anyRun free, Text.mem_ends]
    exact suffix

/-- A pattern behind a fixed text accepts the terms that begin with that text and go on as the
pattern says. -/
theorem accepts_ofText_append (start : String) (pattern : TermPattern) (term : String) :
    (ofText start ++ pattern).accepts term = true ↔
      ∃ rest : String, term = start ++ rest ∧ pattern.accepts rest = true := by
  rw [accepts_iff, ofText, fits_literals_append]
  constructor
  · rintro ⟨rest, same, fits⟩
    refine ⟨String.ofList rest, ?_, ?_⟩
    · rw [← String.toList_inj, String.toList_append, String.toList_ofList]
      exact same
    · rw [accepts_iff, String.toList_ofList]
      exact fits
  · rintro ⟨rest, rfl, accepted⟩
    refine ⟨rest.toList, String.toList_append, ?_⟩
    exact (accepts_iff pattern rest).mp accepted

/-! ## Patterns with stars -/

/-- The piece that a character of a pattern with stars stands for. -/
def pieceOf (character : Char) : Piece :=
  if character == '*' then .anyRun
  else if character == '?' then .anyOne
  else .literal character

/-- On text without a line feed, a piece leaves the lower-cased rests that its character leaves. -/
theorem rests_pieceOf (character : Char) {text : List Char}
    (free : IsFree (text.map Char.toLower)) :
    (pieceOf character.toLower).rests (text.map Char.toLower) =
      (Glob.starRests character text).map (List.map Char.toLower) := by
  unfold pieceOf Glob.starRests
  rw [Glob.toLower_beq_mark character (by decide), Glob.toLower_beq_mark character (by decide)]
  split
  · rw [Piece.rests_anyRun free]
    exact Text.ends_map Char.toLower text
  · split
    · apply Text.endAfter_map
      intro head member
      exact free head.toLower (List.mem_map_of_mem member)
    · apply Text.endAfter_map
      intro head member
      rfl

/-- The pattern of a text with stars accepts a lower-cased text just when the characters of the
pattern match it. -/
theorem accepts_ofWildcard_iff_matched (pattern : List Char) {text : List Char}
    (free : IsFree (text.map Char.toLower)) :
    (ofWildcard (String.ofList (pattern.map Char.toLower))).accepts
        (String.ofList (text.map Char.toLower)) = true ↔
      Text.Matched Glob.starRests pattern text := by
  have pieces : ofWildcard (String.ofList (pattern.map Char.toLower)) =
      pattern.map fun character => pieceOf character.toLower := by
    rw [ofWildcard, String.toList_ofList, List.map_map]
    rfl
  have kept : ∀ character part rest, IsFree (part.map Char.toLower) ->
      rest ∈ Glob.starRests character part -> IsFree (rest.map Char.toLower) :=
    fun character part rest holds member =>
      holds.of_suffix ((Glob.suffix_of_mem_starRests member).map Char.toLower)
  rw [accepts_iff, String.toList_ofList, pieces]
  exact Text.matched_map kept (fun character part (_ : True) holds => rests_pieceOf character holds)
    pattern text (fun _ _ => trivial) free

/-- On ASCII without a line feed, a simple pattern matches the same texts as a path pattern and, in
lower case, as a pattern for terms. -/
theorem matchesText_eq_accepts {pattern text : List Char} (ascii : Text.IsAscii pattern)
    (asciiText : Text.IsAscii text) (free : IsFree (text.map Char.toLower)) :
    Glob.matchesText (pattern.map Glob.partOf) (String.ofList text) =
      (ofWildcard (String.ofList (pattern.map Char.toLower))).accepts
        (String.ofList (text.map Char.toLower)) := by
  rw [Bool.eq_iff_iff, Glob.matchesText_iff_matched ascii asciiText,
    accepts_ofWildcard_iff_matched pattern free]

end TermPattern

end Index
end Commonplace
