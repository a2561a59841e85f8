import Commonplace.Proofs.Text.Ascii
import Commonplace.Proofs.Text.Trimming
import Commonplace.Text.Alphanumeric

namespace Commonplace
namespace Text

/-!
# The case of ASCII letters

Two texts that differ only in the case of ASCII letters are the same when these letters are made
small.  The classes of characters that trimming, cutting into words and lower-casing look at take no
notice of that case, so these operations do not tell such texts apart.
-/

/-- Whether two texts differ at most in the case of ASCII letters. -/
def SameLetters (first second : List Char) : Prop :=
  first.map Char.toLower = second.map Char.toLower

instance (first second : List Char) : Decidable (SameLetters first second) :=
  inferInstanceAs (Decidable (_ = _))

/-- What only looks at the small letters of a text does not tell the two texts apart. -/
theorem SameLetters.congr {value : Type} {first second : List Char}
    (same : SameLetters first second) (read : List Char -> value)
    (small : ∀ characters, read (characters.map Char.toLower) = read characters) :
    read first = read second := by
  rw [← small first, same, small second]

/-! ## Characters -/

/-- A property of characters takes no notice of their case when this is so for ASCII. -/
theorem toLower_eq_of_ascii {value : Type} (property : Char -> value)
    (ascii : ∀ point < 128, property (Char.ofNat point).toLower = property (Char.ofNat point))
    (character : Char) : property character.toLower = property character := by
  by_cases small : character.toNat < 128
  · exact forall_ascii (fun character => property character.toLower = property character) ascii
      small
  · rw [toLower_of_not_ascii small]

theorem toLower_toLower : ∀ character : Char, character.toLower.toLower = character.toLower :=
  toLower_eq_of_ascii Char.toLower (by decide +kernel)

theorem lowerFull_toLower : ∀ character, lowerFull character.toLower = lowerFull character :=
  toLower_eq_of_ascii lowerFull (by decide +kernel)

theorem toLower_beq_sigma : ∀ character, (character.toLower == 'Σ') = (character == 'Σ') :=
  toLower_eq_of_ascii (· == 'Σ') (by decide +kernel)

theorem cased_toLower :
    ∀ character, casedCodePoints.contains character.toLower = casedCodePoints.contains character :=
  toLower_eq_of_ascii casedCodePoints.contains (by decide +kernel)

theorem caseIgnorable_toLower : ∀ character,
    caseIgnorableCodePoints.contains character.toLower =
      caseIgnorableCodePoints.contains character :=
  toLower_eq_of_ascii caseIgnorableCodePoints.contains (by decide +kernel)

theorem isBlank_toLower : ∀ character, isBlank character.toLower = isBlank character :=
  toLower_eq_of_ascii isBlank (by decide +kernel)

theorem isAlphanumeric_toLower :
    ∀ character, isAlphanumeric character.toLower = isAlphanumeric character :=
  toLower_eq_of_ascii isAlphanumeric (by decide +kernel)

theorem utf8Size_toLower : ∀ character : Char, character.toLower.utf8Size = character.utf8Size :=
  toLower_eq_of_ascii Char.utf8Size (by decide +kernel)

theorem utf8Len_map_toLower (characters : List Char) :
    String.utf8Len (characters.map Char.toLower) = String.utf8Len characters := by
  induction characters with
  | nil => rfl
  | cons head tail inductionHypothesis =>
      rw [List.map_cons, String.utf8Len_cons, String.utf8Len_cons, utf8Size_toLower,
        inductionHypothesis]

/-! ## Lower case -/

theorem lowerEach_map_toLower (characters : List Char) :
    lowerEach (characters.map Char.toLower) = lowerEach characters := by
  rw [lowerEach, List.flatMap_map]
  exact List.flatMap_congr fun character _ => lowerFull_toLower character

theorem meetsCased_map_toLower (characters : List Char) :
    meetsCased (characters.map Char.toLower) = meetsCased characters := by
  have ignored : caseIgnorableCodePoints.contains ∘ Char.toLower =
      caseIgnorableCodePoints.contains := funext caseIgnorable_toLower
  rw [meetsCased, meetsCased, List.dropWhile_map, ignored]
  cases characters.dropWhile caseIgnorableCodePoints.contains with
  | nil => rfl
  | cons head tail => exact cased_toLower head

theorem lowerFrom_map_toLower (before characters : List Char) :
    lowerFrom (before.map Char.toLower) (characters.map Char.toLower) =
      lowerFrom before characters := by
  induction characters generalizing before with
  | nil => rfl
  | cons head tail inductionHypothesis =>
      have later := inductionHypothesis (head :: before)
      rw [List.map_cons] at later
      rw [List.map_cons, lowerFrom, lowerFrom, later, toLower_beq_sigma, meetsCased_map_toLower,
        meetsCased_map_toLower, lowerFull_toLower]

/-- Lower-casing takes the case of ASCII letters away. -/
theorem lower_congr {first second : String}
    (same : SameLetters first.toList second.toList) : lower first = lower second :=
  congrArg String.ofList (same.congr (lowerFrom []) (lowerFrom_map_toLower []))

/-! ## Trimming and runs -/

theorem dropEndWhile_map_toLower {drop : Char -> Bool} (small : drop ∘ Char.toLower = drop)
    (characters : List Char) :
    dropEndWhile drop (characters.map Char.toLower) =
      (dropEndWhile drop characters).map Char.toLower := by
  rw [dropEndWhile, dropEndWhile, ← List.map_reverse, List.dropWhile_map, small, List.map_reverse]

theorem trim_sameLetters {first second : String}
    (same : SameLetters first.toList second.toList) :
    SameLetters (trim first).toList (trim second).toList := by
  have small : isBlank ∘ Char.toLower = isBlank := funext isBlank_toLower
  rw [trim, trim, String.toList_ofList, String.toList_ofList]
  apply same.congr fun characters => (trimChars characters).map Char.toLower
  intro characters
  rw [trimChars, trimChars, dropEndsWhile, dropEndsWhile, List.dropWhile_map, small,
    dropEndWhile_map_toLower small, List.map_map]
  congr 1
  funext character
  exact toLower_toLower character

theorem splitOnP_map {separates : Char -> Bool} {change : Char -> Char}
    (kept : separates ∘ change = separates) (characters : List Char) :
    (characters.map change).splitOnP separates =
      (characters.splitOnP separates).map (List.map change) := by
  induction characters with
  | nil => rw [List.map_nil, List.splitOnP_nil]; rfl
  | cons head tail inductionHypothesis =>
      have here : separates (change head) = separates head := congrFun kept head
      rw [List.map_cons, List.splitOnP_cons_eq_if_modifyHead,
        List.splitOnP_cons_eq_if_modifyHead, here, inductionHypothesis]
      split
      · rfl
      · rcases List.exists_cons_of_ne_nil (List.splitOnP_ne_nil separates tail) with
          ⟨first, others, whole⟩
        rw [whole]
        rfl

theorem runs_map_toLower {keep : Char -> Bool} (small : keep ∘ Char.toLower = keep)
    (characters : List Char) :
    runs keep (characters.map Char.toLower) =
      (runs keep characters).map (List.map Char.toLower) := by
  rw [runs, runs, splitOnP_map (funext fun character => by
    exact congrArg not (congrFun small character)), List.filter_map]
  congr 1
  apply List.filter_congr
  intro run _
  exact congrArg not List.isEmpty_map

end Text
end Commonplace
