namespace Commonplace
namespace Text

/-!
# Reading bytes as text

Bytes that are not part of a well-formed character are replaced.  A character that breaks off is
replaced as a whole, up to the byte that does not belong to it.
-/

/-- The character in the place of bytes that are none. -/
def replacement : Char :=
  Char.ofNat 0xFFFD

/-- How a character goes on after its first byte: the range of the second byte, the number of
bytes after that, and the bits that the first byte contributes. -/
structure ByteLead where
  low : Nat
  high : Nat
  more : Nat
  bits : Nat

/-- What the first byte of a character of several bytes announces. -/
def byteLead? (byte : Nat) : Option ByteLead :=
  if 0xC2 ≤ byte && byte ≤ 0xDF then some ⟨0x80, 0xBF, 0, byte - 0xC0⟩
  else if byte == 0xE0 then some ⟨0xA0, 0xBF, 1, 0⟩
  else if byte == 0xED then some ⟨0x80, 0x9F, 1, 0xD⟩
  else if 0xE1 ≤ byte && byte ≤ 0xEF then some ⟨0x80, 0xBF, 1, byte - 0xE0⟩
  else if byte == 0xF0 then some ⟨0x90, 0xBF, 2, 0⟩
  else if 0xF1 ≤ byte && byte ≤ 0xF3 then some ⟨0x80, 0xBF, 2, byte - 0xF0⟩
  else if byte == 0xF4 then some ⟨0x80, 0x8F, 2, 4⟩
  else none

/-- The part of a character that was read: how many bytes it still needs, the range of the next
one, and the bits so far. -/
structure ByteState where
  needed : Nat
  low : Nat
  high : Nat
  bits : Nat

/-- Reads bytes from the left.  A byte that does not fit ends the character at hand and is looked
at again as the start of the next one. -/
def decodeFrom (open? : Option ByteState) : List UInt8 -> List Char
  | [] => if open?.isSome then [replacement] else []
  | byte :: rest =>
      let value := byte.toNat
      let start := fun (_ : Unit) =>
        if value < 0x80 then Char.ofNat value :: decodeFrom none rest
        else
          match byteLead? value with
          | some lead => decodeFrom (some ⟨lead.more + 1, lead.low, lead.high, lead.bits⟩) rest
          | none => replacement :: decodeFrom none rest
      match open? with
      | none => start ()
      | some state =>
          if state.low ≤ value && value ≤ state.high then
            let bits := state.bits * 64 + (value - 0x80)
            if state.needed ≤ 1 then Char.ofNat bits :: decodeFrom none rest
            else decodeFrom (some ⟨state.needed - 1, 0x80, 0xBF, bits⟩) rest
          else replacement :: start ()

def decode (bytes : List UInt8) : String :=
  String.ofList (decodeFrom none bytes)

end Text
end Commonplace
