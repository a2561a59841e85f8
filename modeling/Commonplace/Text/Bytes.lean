namespace Commonplace
namespace Text

/-!
# Bytes of a text

Places in a text are counted in bytes.  A text can be split where a character begins and at its end,
and nowhere else.
-/

/-- The number of bytes that some characters take. -/
def byteSize (characters : List Char) : Nat :=
  (String.ofList characters).utf8ByteSize

/-- The parts of a text before and from a byte on; nothing inside a character or past the end. -/
def splitAtByte? : Nat -> List Char -> Option (List Char × List Char)
  | 0, characters => some ([], characters)
  | _ + 1, [] => none
  | position + 1, character :: rest =>
      if character.utf8Size ≤ position + 1 then
        (splitAtByte? (position + 1 - character.utf8Size) rest).map fun parts =>
          (character :: parts.1, parts.2)
      else none

end Text
end Commonplace
