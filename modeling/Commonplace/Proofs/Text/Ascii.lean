import Commonplace.Glob.Pattern
import Commonplace.Proofs.Text.Lowering

namespace Commonplace
namespace Text

/-!
# ASCII texts

An ASCII text is lower-cased character by character, and its bytes are its characters.  So it can be
compared in lower case as characters or as bytes, and the outcome is the same.  A text beyond ASCII
stays so in lower case, unless all that makes it so are Kelvin signs.
-/

/-- Whether all characters of a text are ASCII. -/
def IsAscii (text : List Char) : Prop :=
  ∀ character ∈ text, character.toNat < 128

instance (text : List Char) : Decidable (IsAscii text) :=
  List.decidableBAll (fun character : Char => character.toNat < 128) text

theorem IsAscii.of_suffix {text rest : List Char} (ascii : IsAscii text) (suffix : rest <:+ text) :
    IsAscii rest :=
  fun character member => ascii character (suffix.subset member)

theorem IsAscii.of_cons {head : Char} {tail : List Char} (ascii : IsAscii (head :: tail)) :
    head.toNat < 128 ∧ IsAscii tail :=
  ⟨ascii head List.mem_cons_self, fun other member => ascii other (List.mem_cons_of_mem _ member)⟩

/-! ## Lower case -/

theorem toLower_of_not_ascii {character : Char} (notAscii : ¬character.toNat < 128) :
    character.toLower = character := by
  apply dif_neg
  rintro ⟨_, below⟩
  have small : character.toNat ≤ 90 := UInt32.le_iff_toNat_le.mp below
  omega

theorem lowerFull_of_ascii {character : Char} (ascii : character.toNat < 128) :
    lowerFull character = [character.toLower] := by
  have notDotted : ¬ (character.toNat == 304) = true := by
    rw [beq_iff_eq]
    omega
  rw [lowerFull, if_neg notDotted, lowerSimple, if_pos ascii]

theorem lowerEach_of_ascii {text : List Char} (ascii : IsAscii text) :
    lowerEach text = text.map Char.toLower := by
  induction text with
  | nil => rfl
  | cons head tail inductionHypothesis =>
      rw [lowerEach, List.flatMap_cons, lowerFull_of_ascii ascii.of_cons.1]
      exact congrArg _ (inductionHypothesis ascii.of_cons.2)

theorem lowerFrom_of_ascii (before : List Char) {text : List Char} (ascii : IsAscii text) :
    lowerFrom before text = text.map Char.toLower := by
  induction text generalizing before with
  | nil => rfl
  | cons head tail inductionHypothesis =>
      have parts := ascii.of_cons
      have notSigma : (head == 'Σ') = false := by
        rw [beq_eq_false_iff_ne]
        rintro rfl
        exact absurd parts.1 (by decide)
      rw [lowerFrom, notSigma, inductionHypothesis (head :: before) parts.2]
      simp only [Bool.false_eq_true, if_false, lowerFull_of_ascii parts.1]
      rfl

theorem toList_lower_of_ascii {text : String} (ascii : IsAscii text.toList) :
    (lower text).toList = text.toList.map Char.toLower := by
  rw [lower, String.toList_ofList, lowerFrom_of_ascii [] ascii]

/-! ## Letters beyond ASCII -/

/-- The Kelvin sign, the one character beyond ASCII whose lower-case form is ASCII. -/
def kelvinSign : Char :=
  Char.ofNat 8490

theorem runs_beyond_ascii : ∀ run ∈ lowerCaseRuns, ∀ point ∈ run.points,
    point = 8490 ∨ 128 ≤ (Char.ofNat (Int.toNat (point + run.shift))).toNat := by
  decide +kernel

theorem lowerSimple_beyond_ascii {character : Char} (notAscii : ¬character.toNat < 128)
    (notKelvin : character ≠ kelvinSign) : ¬(lowerSimple character).toNat < 128 := by
  rw [lowerSimple, if_neg notAscii]
  split
  · rename_i run found
    have covered : run.covers character.toNat = true :=
      List.find?_some (p := fun run : CaseRun => run.covers character.toNat) found
    rcases runs_beyond_ascii run (List.mem_of_find?_eq_some found) character.toNat
      (CaseRun.mem_points_of_covers covered) with kelvin | above
    · exact absurd (by rw [← Char.ofNat_toNat character, kelvin, kelvinSign]) notKelvin
    · exact Nat.not_lt.mpr above
  · exact notAscii

/-- A text with a character beyond ASCII, but for the Kelvin sign, has one in lower case too. -/
theorem exists_mem_lowerFrom (before : List Char) {text : List Char} {character : Char}
    (member : character ∈ text) (notAscii : ¬character.toNat < 128)
    (notKelvin : character ≠ kelvinSign) :
    ∃ lowered ∈ lowerFrom before text, ¬lowered.toNat < 128 := by
  induction text generalizing before with
  | nil => cases member
  | cons head tail inductionHypothesis =>
      simp only [lowerFrom, List.mem_append]
      rcases List.mem_cons.mp member with rfl | later
      · split
        · split
          · exact ⟨'ς', .inl (List.mem_singleton_self _), by decide⟩
          · exact ⟨'σ', .inl (List.mem_singleton_self _), by decide⟩
        · rw [lowerFull]
          split
          · exact ⟨Char.ofNat 775, .inl (by decide), by decide⟩
          · exact ⟨_, .inl (List.mem_singleton_self _),
              lowerSimple_beyond_ascii notAscii notKelvin⟩
      · rcases inductionHypothesis (head :: before) later with ⟨lowered, inRest, beyond⟩
        exact ⟨lowered, .inr inRest, beyond⟩

theorem exists_mem_lower {text : String} {character : Char} (member : character ∈ text.toList)
    (notAscii : ¬character.toNat < 128) (notKelvin : character ≠ kelvinSign) :
    ∃ lowered ∈ (lower text).toList, ¬lowered.toNat < 128 := by
  rw [lower, String.toList_ofList]
  exact exists_mem_lowerFrom [] member notAscii notKelvin

/-- A text in lower case has no ASCII capitals. -/
theorem map_toLower_lower (text : String) :
    (lower text).toList.map Char.toLower = (lower text).toList := by
  have fixed : ∀ character ∈ (lower text).toList, character.toLower = character := by
    intro character member
    by_cases ascii : character.toNat < 128
    · have low := isLow_of_mem_lower member
      rw [IsLow, lowerFull_of_ascii ascii] at low
      exact (List.cons.inj low).1
    · exact toLower_of_not_ascii ascii
  exact (List.map_congr_left fixed).trans (List.map_id' _)

/-! ## Bytes -/

/-- The last byte of a character, which is the only one of an ASCII character. -/
def byteOf (character : Char) : UInt8 :=
  character.val.toUInt8

/-- Reading bytes from a position on puts the rest of them behind what was read. -/
theorem toList_loop (bytes : ByteArray) (index : Nat) (read : List UInt8) :
    ByteArray.toList.loop bytes index read = read.reverse ++ bytes.data.toList.drop index := by
  fun_induction ByteArray.toList.loop with
  | case1 index read inside inductionHypothesis =>
      have bound : index < bytes.data.toList.length := by
        rw [Array.length_toList]
        exact inside
      have here : bytes.get! index = bytes.data.toList[index] := by
        rw [ByteArray.get!, getElem!_pos bytes.data index inside, Array.getElem_toList]
      rw [inductionHypothesis, List.drop_eq_getElem_cons bound, here]
      simp
  | case2 index read outside =>
      have bound : bytes.data.toList.length ≤ index := by
        rw [Array.length_toList]
        exact Nat.le_of_not_lt outside
      rw [List.drop_eq_nil_of_le bound, List.append_nil]

theorem toList_eq_data (bytes : ByteArray) : bytes.toList = bytes.data.toList := by
  rw [ByteArray.toList, toList_loop]
  rfl

theorem bytes_of_ascii {text : String} (ascii : IsAscii text.toList) :
    text.toUTF8.toList = text.toList.map byteOf := by
  rw [toList_eq_data, String.toUTF8_eq_toByteArray, ← String.utf8Encode_toList, List.utf8Encode,
    List.toList_data_toByteArray, List.map_eq_flatMap]
  apply List.flatMap_congr
  intro character member
  apply String.utf8EncodeChar_eq_singleton
  rw [Char.utf8Size_eq_one_iff, UInt32.le_iff_toNat_le]
  have small := ascii character member
  change character.toNat ≤ 127
  omega

/-- On ASCII characters, lower case is the same for characters and for bytes. -/
theorem lowerByte_byteOf {character : Char} (ascii : character.toNat < 128) :
    Glob.lowerByte (byteOf character) = byteOf character.toLower :=
  forall_ascii (fun character => Glob.lowerByte (byteOf character) = byteOf character.toLower)
    (by decide +kernel) ascii

theorem toLower_ascii {character : Char} (ascii : character.toNat < 128) :
    character.toLower.toNat < 128 :=
  forall_ascii (fun character => character.toLower.toNat < 128) (by decide +kernel) ascii

theorem byteOf_inj {first second : Char} (firstAscii : first.toNat < 128)
    (secondAscii : second.toNat < 128) : byteOf first = byteOf second ↔ first = second := by
  constructor
  · intro same
    have numbers := congrArg UInt8.toNat same
    simp only [byteOf, UInt32.toNat_toUInt8, Char.toNat_val] at numbers
    rw [Nat.mod_eq_of_lt (by omega), Nat.mod_eq_of_lt (by omega)] at numbers
    rw [← Char.ofNat_toNat first, ← Char.ofNat_toNat second, numbers]
  · rintro rfl
    rfl

/-- Two ASCII characters are equal without regard to their case just when their bytes are. -/
theorem lowerByte_beq {first second : Char} (firstAscii : first.toNat < 128)
    (secondAscii : second.toNat < 128) :
    (Glob.lowerByte (byteOf first) == Glob.lowerByte (byteOf second)) =
      (first.toLower == second.toLower) := by
  rw [lowerByte_byteOf firstAscii, lowerByte_byteOf secondAscii, Bool.eq_iff_iff, beq_iff_eq,
    beq_iff_eq]
  exact byteOf_inj (toLower_ascii firstAscii) (toLower_ascii secondAscii)

end Text
end Commonplace
