import Commonplace.Text.Bytes
import Mathlib.Data.String.Basic

namespace Commonplace
namespace Text

/-!
# Splitting a text at a byte

The bytes of a text are those of its characters, one after the other.  So a text is split at a byte
into two parts just when it is these parts and the first of them takes as many bytes.
-/

theorem byteSize_nil : byteSize [] = 0 :=
  rfl

theorem byteSize_cons (character : Char) (rest : List Char) :
    byteSize (character :: rest) = character.utf8Size + byteSize rest := by
  rw [byteSize, byteSize, String.utf8ByteSize_ofList, String.utf8ByteSize_ofList,
    String.utf8Len_cons, Nat.add_comm]

theorem byteSize_singleton {character : Char} (isAscii : character.utf8Size = 1) :
    byteSize [character] = 1 := by
  rw [byteSize_cons, isAscii, byteSize_nil]

theorem byteSize_pair {first second : Char} (firstAscii : first.utf8Size = 1)
    (secondAscii : second.utf8Size = 1) : byteSize [first, second] = 2 := by
  rw [byteSize_cons, firstAscii, byteSize_singleton secondAscii]

theorem byteSize_append (first second : List Char) :
    byteSize (first ++ second) = byteSize first + byteSize second := by
  rw [byteSize, String.ofList_append, String.utf8ByteSize_append, ← byteSize, ← byteSize]

theorem byteSize_toList (text : String) : byteSize text.toList = text.utf8ByteSize := by
  rw [byteSize, String.ofList_toList]

theorem byteSize_eq_zero_iff {characters : List Char} :
    byteSize characters = 0 ↔ characters = [] := by
  cases characters with
  | nil => exact ⟨fun _ => rfl, fun _ => rfl⟩
  | cons character rest =>
      have positive := character.utf8Size_pos
      rw [byteSize_cons]
      exact ⟨fun none => by omega, nofun⟩

/-- A text can be split where a character begins, and nowhere else. -/
theorem splitAtByte?_eq_some_iff {position : Nat} {characters before after : List Char} :
    splitAtByte? position characters = some (before, after) ↔
      characters = before ++ after ∧ position = byteSize before := by
  induction characters generalizing position before with
  | nil =>
      cases position with
      | zero =>
          rw [splitAtByte?]
          constructor
          · rintro ⟨⟩
            exact ⟨rfl, rfl⟩
          · rintro ⟨whole, -⟩
            rcases List.append_eq_nil_iff.mp whole.symm with ⟨rfl, rfl⟩
            rfl
      | succ position =>
          rw [splitAtByte?]
          refine ⟨nofun, ?_⟩
          rintro ⟨whole, size⟩
          rw [(List.append_eq_nil_iff.mp whole.symm).1] at size
          cases size
  | cons character rest inductionHypothesis =>
      have positive := character.utf8Size_pos
      cases position with
      | zero =>
          rw [splitAtByte?]
          constructor
          · rintro ⟨⟩
            exact ⟨rfl, rfl⟩
          · rintro ⟨whole, size⟩
            rw [byteSize_eq_zero_iff.mp size.symm] at whole ⊢
            rw [whole]
            rfl
      | succ position =>
          rw [splitAtByte?]
          constructor
          · intro isSplit
            split at isSplit
            · rcases Option.map_eq_some_iff.mp isSplit with ⟨⟨first, second⟩, later, same⟩
              cases same
              rcases inductionHypothesis.mp later with ⟨rfl, size⟩
              refine ⟨rfl, ?_⟩
              dsimp only
              rw [byteSize_cons]
              omega
            · cases isSplit
          · rintro ⟨whole, size⟩
            cases before with
            | nil => cases size
            | cons head others =>
                cases whole
                rw [byteSize_cons] at size
                rw [if_pos (by omega), inductionHypothesis.mpr ⟨rfl, by omega⟩]
                rfl

end Text
end Commonplace
