import Commonplace.Proofs.Text.Trimming
import Commonplace.Time.Reader
import Commonplace.Time.Written
import Mathlib.Algebra.Group.Nat.Defs

namespace Commonplace
namespace Time

/-!
# Reading numbers

A number is written in decimal digits, with zeros in front up to a width.  Every reader of numbers
takes such digits from the front of a text and returns the number, if it may not take more digits
than these or none follow.
-/

theorem digitsValue_eq (digits : List Char) :
    digitsValue digits = Nat.ofDigitChars 10 digits 0 := by
  rw [digitsValue, Nat.ofDigitChars_eq_foldl]
  simp only [Nat.mul_comm, Char.reduceToNat]

/-- Digits that write a number in a given width. -/
structure Writes (digits : List Char) (width number : Nat) : Prop where
  length : digits.length = width
  digit : ∀ character ∈ digits, character.isDigit = true
  number : digitsValue digits = number

/-- A number that fits into a width is written in it. -/
theorem writes_padded {width number : Nat} (positive : 0 < width) (fits : number < 10 ^ width) :
    Writes (padded width number).toList width number := by
  have short : (Nat.toDigits 10 number).length ≤ width :=
    (Nat.length_toDigits_le_iff (by decide) positive).mpr fits
  rw [padded, String.toList_ofList]
  refine ⟨?_, ?_, ?_⟩
  · rw [List.length_append, List.length_replicate]
    omega
  · intro character member
    rcases List.mem_append.mp member with inZeros | inDigits
    · rw [List.eq_of_mem_replicate inZeros]
      decide
    · exact Nat.isDigit_of_mem_toDigits (by decide) (by decide) inDigits
  · rw [digitsValue_eq, Nat.ofDigitChars_append, Nat.ofDigitChars_replicate_zero, Nat.mul_zero,
      Nat.ofDigitChars_ten_toDigits]

/-! ## Digits and other characters -/

theorem toNat_of_isDigit {character : Char} (digit : character.isDigit = true) :
    48 ≤ character.toNat ∧ character.toNat ≤ 57 := by
  simp only [Char.isDigit, Bool.and_eq_true, decide_eq_true_eq] at digit
  exact digit

theorem isBlank_of_isDigit {character : Char} (digit : character.isDigit = true) :
    Text.isBlank character = false := by
  have parts := toNat_of_isDigit digit
  simp [Text.isBlank]
  omega

theorem toLower_of_isDigit {character : Char} (digit : character.isDigit = true) :
    character.toLower = character := by
  have parts := toNat_of_isDigit digit
  apply dif_neg
  rintro ⟨above, _⟩
  have large : 65 ≤ character.toNat := UInt32.le_iff_toNat_le.mp above
  omega

namespace Writes

variable {digits rest : List Char} {width number : Nat}

theorem ne_nil (writes : Writes digits width number) (positive : 0 < width) : digits ≠ [] := by
  intro none
  rw [← writes.length, none] at positive
  exact Nat.lt_irrefl 0 positive

theorem takeWhile (writes : Writes digits width number)
    (stops : ∀ head ∈ rest.head?, head.isDigit = false) :
    (digits ++ rest).takeWhile Char.isDigit = digits := by
  have none : rest.takeWhile Char.isDigit = [] := by
    cases rest with
    | nil => rfl
    | cons head tail => rw [List.takeWhile_cons, stops head rfl, if_neg Bool.false_ne_true]
  rw [List.takeWhile_append_of_pos writes.digit, none, List.append_nil]

theorem dropWhile (writes : Writes digits width number)
    (stops : ∀ head ∈ rest.head?, head.isDigit = false) :
    (digits ++ rest).dropWhile Char.isDigit = rest := by
  rw [List.dropWhile_append_of_pos writes.digit, Text.dropWhile_of_head? stops]

/-- The digits at the front of a text are these, if no more may be looked at or none follow. -/
theorem takeWhile_take (writes : Writes digits width number) {limit : Nat} (enough : width ≤ limit)
    (stops : width = limit ∨ ∀ head ∈ rest.head?, head.isDigit = false) :
    ((digits ++ rest).take limit).takeWhile Char.isDigit = digits := by
  rw [List.take_append, List.take_of_length_le (by rw [writes.length]; exact enough)]
  apply writes.takeWhile
  intro head first
  rw [List.head?_take] at first
  split at first
  · cases first
  · rename_i room
    rcases stops with full | other
    · exact absurd (by rw [writes.length, full, Nat.sub_self]) room
    · exact other head first

theorem readDigits (writes : Writes digits width number) (positive : 0 < width) {limit : Nat}
    (enough : width ≤ limit)
    (stops : width = limit ∨ ∀ head ∈ rest.head?, head.isDigit = false) :
    readDigits limit (digits ++ rest) = some (number, rest) := by
  rw [Time.readDigits, writes.takeWhile_take enough stops, List.isEmpty_eq_false_iff.mpr (writes.ne_nil positive),
    if_neg Bool.false_ne_true, writes.number, List.drop_left]

theorem readFixed (writes : Writes digits width number) :
    readFixed width (digits ++ rest) = some (number, rest) := by
  rw [Time.readFixed, writes.takeWhile_take (Nat.le_refl width) (.inl rfl), if_pos (beq_iff_eq.mpr writes.length),
    writes.number, ← writes.length, List.drop_left]

/-- Fewer digits than asked for are no number of a fixed width. -/
theorem readFixed_of_lt (writes : Writes digits width number) {wider : Nat} (less : width < wider)
    (stops : ∀ head ∈ rest.head?, head.isDigit = false) :
    Time.readFixed wider (digits ++ rest) = none := by
  rw [Time.readFixed, writes.takeWhile_take (Nat.le_of_lt less) (.inr stops), writes.length, if_neg]
  rw [beq_iff_eq]
  exact Nat.ne_of_lt less

/-- No blanks stand in front of digits. -/
theorem dropWhile_isBlank (writes : Writes digits width number) (positive : 0 < width) :
    (digits ++ rest).dropWhile Text.isBlank = digits ++ rest := by
  apply Text.dropWhile_of_head?
  intro head first
  rw [List.head?_append_of_ne_nil _ (writes.ne_nil positive)] at first
  exact isBlank_of_isDigit (writes.digit head (List.mem_of_mem_head? first))

theorem readShort (writes : Writes digits 2 number) :
    readShort (digits ++ rest) = some (number, rest) := by
  rw [Time.readShort, writes.dropWhile_isBlank (by decide)]
  exact writes.readDigits (by decide) (Nat.le_refl 2) (.inl rfl)

theorem readYear (writes : Writes digits width number) (positive : 0 < width) (enough : width ≤ 4)
    (stops : width = 4 ∨ ∀ head ∈ rest.head?, head.isDigit = false) :
    readYear (digits ++ rest) = some ((number : Int), rest) := by
  have read := writes.readDigits positive enough stops
  rw [Time.readYear, writes.dropWhile_isBlank positive]
  cases digits with
  | nil => exact absurd rfl (writes.ne_nil positive)
  | cons head tail =>
      have digit := writes.digit head List.mem_cons_self
      rw [List.cons_append] at read ⊢
      split
      · rename_i same
        rw [(List.cons.inj same).1] at digit
        exact absurd digit (by decide)
      · rename_i same
        rw [(List.cons.inj same).1] at digit
        exact absurd digit (by decide)
      · rw [read]
        rfl

end Writes

theorem readChar_cons (expected : Char) (rest : List Char) :
    readChar expected (expected :: rest) = some ((), rest) := by
  rw [readChar, if_pos (beq_self_eq_true expected)]

theorem readChar_cons_of_ne {expected head : Char} (other : head ≠ expected) (rest : List Char) :
    readChar expected (head :: rest) = none := by
  rw [readChar, if_neg (by simpa using other)]

end Time
end Commonplace
