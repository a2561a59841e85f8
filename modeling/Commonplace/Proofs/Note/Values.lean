import Commonplace.Note.Basic
import Commonplace.Proofs.Text.Trimming
import Mathlib.Data.List.Nodup

namespace Commonplace

/-!
# The texts of metadata

All texts that a metadata value counts with are trimmed: blanks around a text do not count, and
neither numbers nor truth values are written with blanks.  Where the keys are distinct, a key counts
with the texts of its own value.
-/

/-! ## Numbers -/

/-- A character that numbers are written with. -/
def IsNumeral (character : Char) : Prop :=
  character.isDigit = true ∨ character ∈ ['.', 'e', '+', '-']

theorem notBlank_of_isNumeral {character : Char} (numeral : IsNumeral character) :
    Text.isBlank character = false := by
  rcases numeral with digit | mark
  · rw [Char.isDigit_iff_toNat] at digit
    change 48 ≤ character.toNat ∧ character.toNat ≤ 57 at digit
    simp only [Text.isBlank, Bool.or_eq_false_iff, Bool.and_eq_false_iff, decide_eq_false_iff_not,
      beq_eq_false_iff_ne]
    omega
  · simp only [List.mem_cons, List.not_mem_nil, or_false] at mark
    rcases mark with rfl | rfl | rfl | rfl <;> decide

/-- Whether a text is written with the characters of numbers. -/
def AreNumerals (characters : List Char) : Prop :=
  ∀ character ∈ characters, IsNumeral character

namespace AreNumerals

theorem nil : AreNumerals [] := by
  intro character member
  cases member

theorem cons {head : Char} {tail : List Char} (first : IsNumeral head) (rest : AreNumerals tail) :
    AreNumerals (head :: tail) := by
  intro character member
  rcases List.mem_cons.mp member with rfl | later
  · exact first
  · exact rest character later

theorem append {first second : List Char} (before : AreNumerals first)
    (after : AreNumerals second) : AreNumerals (first ++ second) := by
  intro character member
  rcases List.mem_append.mp member with early | late
  · exact before character early
  · exact after character late

theorem of_subset {some all : List Char} (subset : some ⊆ all) (numerals : AreNumerals all) :
    AreNumerals some :=
  fun character member => numerals character (subset member)

theorem replicate (count : Nat) : AreNumerals (List.replicate count '0') := by
  intro character member
  rw [List.eq_of_mem_replicate member]
  exact .inl (by decide)

theorem isTrimmed {characters : List Char} (numerals : AreNumerals characters) :
    Text.IsTrimmed characters :=
  .of_forall fun character member => notBlank_of_isNumeral (numerals character member)

end AreNumerals

theorem isNumeral_zero : IsNumeral '0' :=
  .inl (by decide)

theorem isNumeral_point : IsNumeral '.' :=
  .inr (by decide)

theorem isNumeral_minus : IsNumeral '-' :=
  .inr (by decide)

theorem toDigits_areNumerals (number : Nat) : AreNumerals (Nat.toDigits 10 number) :=
  fun _ member => .inl (Nat.isDigit_of_mem_toDigits (by decide) (by decide) member)

theorem natural_areNumerals (number : Nat) : AreNumerals (toString number).toList := by
  rw [Nat.toString_eq_ofList_toDigits, String.toList_ofList]
  exact toDigits_areNumerals number

theorem whole_areNumerals (number : Int) : AreNumerals (toString number).toList := by
  rw [Int.toString_eq_repr, Int.repr_eq_if]
  by_cases positive : 0 ≤ number
  · rw [if_pos positive]
    exact natural_areNumerals number.toNat
  · rw [if_neg positive, String.toList_append]
    exact .cons isNumeral_minus (natural_areNumerals (-number).toNat)

namespace Decimal

theorem shortest_areNumerals (bits : UInt64) : AreNumerals (shortest bits).digits := by
  unfold shortest
  dsimp only
  split
  · -- Zeros are dropped from the end of written digits.
    apply (toDigits_areNumerals _).of_subset
    exact (Text.dropEndWhile_isPrefix _ _).subset
  · exact .cons isNumeral_zero .nil

theorem exponentText_areNumerals (sign : ExponentSign) (exponent : Int) :
    AreNumerals (exponentText sign exponent) := by
  have plus : AreNumerals (if sign == .always && 0 ≤ exponent then ['+'] else []) := by
    split
    · exact .cons (.inr (by decide)) .nil
    · exact .nil
  exact .cons (.inr (by decide)) (plus.append (whole_areNumerals exponent))

theorem placePoint_areNumerals (sign : ExponentSign) {decimal : Digits}
    (numerals : AreNumerals decimal.digits) : AreNumerals (placePoint sign decimal) := by
  have exponent := exponentText_areNumerals sign (decimal.point - 1)
  unfold placePoint
  dsimp only
  split
  · split
    · exact (numerals.append (.replicate _)).append
        (.cons isNumeral_point (.cons isNumeral_zero .nil))
    · exact (numerals.of_subset (List.take_subset _ _)).append
        (.cons isNumeral_point (numerals.of_subset (List.drop_subset _ _)))
  · split
    · exact .cons isNumeral_zero (.cons isNumeral_point ((AreNumerals.replicate _).append numerals))
    · cases split : decimal.digits with
      | nil => exact .cons isNumeral_zero .nil
      | cons head tail =>
          rw [split] at numerals
          have first := numerals head List.mem_cons_self
          have rest : AreNumerals tail := numerals.of_subset (List.subset_cons_self head tail)
          cases tail with
          | nil => exact .cons first exponent
          | cons next more => exact .cons first (.cons isNumeral_point (rest.append exponent))

theorem placed_areNumerals (sign : ExponentSign) (value : Float) :
    AreNumerals (placed sign value).toList := by
  have unsigned : AreNumerals
      (if value.toBits &&& 0x7FFFFFFFFFFFFFFF == 0 then ['0', '.', '0']
        else placePoint sign (shortest (value.toBits &&& 0x7FFFFFFFFFFFFFFF))) := by
    split
    · exact .cons isNumeral_zero (.cons isNumeral_point (.cons isNumeral_zero .nil))
    · exact placePoint_areNumerals sign (shortest_areNumerals _)
  unfold placed
  dsimp only
  rw [String.toList_ofList]
  split
  · exact .cons isNumeral_minus unsigned
  · exact unsigned

end Decimal

/-! ## Values -/

mutual

/-- All texts of a metadata value are trimmed. -/
theorem trim_of_mem_flatten (value : Json) {text : String} (member : text ∈ value.flatten) :
    Text.trim text = text := by
  cases value with
  | null | object => simp [Json.flatten] at member
  | text value =>
      rw [Json.flatten] at member
      split at member
      · cases member
      · rw [List.mem_singleton.mp member, Text.trim_trim]
  | bool value =>
      rw [Json.flatten, List.mem_singleton] at member
      rw [member]
      cases value <;> rfl
  | whole value =>
      rw [Json.flatten, List.mem_singleton] at member
      rw [member]
      exact Text.trim_of_isTrimmed (whole_areNumerals value).isTrimmed
  | fraction value =>
      rw [Json.flatten, List.mem_singleton] at member
      rw [member]
      exact Text.trim_of_isTrimmed (Decimal.placed_areNumerals .always value).isTrimmed
  | list items =>
      rw [Json.flatten] at member
      exact trim_of_mem_flattenItems items member

theorem trim_of_mem_flattenItems (items : List Json) {text : String}
    (member : text ∈ Json.flattenItems items) : Text.trim text = text := by
  cases items with
  | nil => simp [Json.flattenItems] at member
  | cons item rest =>
      rw [Json.flattenItems, List.mem_append] at member
      rcases member with here | later
      · exact trim_of_mem_flatten item here
      · exact trim_of_mem_flattenItems rest later

end

/-! ## Keys -/

/-- Where the keys are distinct, the value of a key is the one that stands beside it. -/
theorem findEntry_eq_some_iff {value : Type} {entries : List (String × value)}
    (apart : (entries.map Prod.fst).Nodup) (key : String) (found : value) :
    findEntry key entries = some found ↔ (key, found) ∈ entries := by
  induction entries with
  | nil => simp [findEntry]
  | cons head tail inductionHypothesis =>
      rcases head with ⟨headKey, headValue⟩
      rw [List.map_cons, List.nodup_cons] at apart
      have later := inductionHypothesis apart.2
      unfold findEntry at later ⊢
      rw [List.find?_cons, List.mem_cons, Prod.mk.injEq]
      by_cases same : headKey = key
      · subst same
        have notLater : (headKey, found) ∉ tail :=
          fun member => apart.1 (List.mem_map.mpr ⟨_, member, rfl⟩)
        simp only [beq_self_eq_true, Option.map_some, Option.some.injEq, true_and]
        constructor
        · intro here
          exact .inl here.symm
        · rintro (here | inTail)
          · exact here.symm
          · exact absurd inTail notLater
      · rw [beq_eq_false_iff_ne.mpr same, later]
        constructor
        · exact .inr
        · rintro (here | inTail)
          · exact absurd here.1.symm same
          · exact inTail

theorem mem_metadataValues {note : Note} (apart : (note.metadata.map Prod.fst).Nodup)
    (key text : String) :
    text ∈ note.metadataValues key ↔
      ∃ entry ∈ note.metadata, entry.1 = key ∧ text ∈ entry.2.flatten := by
  unfold Note.metadataValues
  constructor
  · intro member
    cases found : findEntry key note.metadata with
    | none =>
        rw [found] at member
        cases member
    | some value =>
        rw [found] at member
        exact ⟨(key, value), (findEntry_eq_some_iff apart key value).mp found, rfl, member⟩
  · rintro ⟨⟨entryKey, value⟩, member, rfl, inValue⟩
    rw [(findEntry_eq_some_iff apart entryKey value).mpr member]
    exact inValue

end Commonplace
