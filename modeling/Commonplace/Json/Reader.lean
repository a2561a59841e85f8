import Commonplace.Json.Number

namespace Commonplace
namespace Json

/-!
# Reading structured values

The reader accepts the standard text form of structured values.  Every step of it consumes a
character, so a budget of one step per character, and one more, is never used up.
-/

/-- Drops the blanks that may stand between the parts of a value. -/
def skipBlanks (characters : List Char) : List Char :=
  characters.dropWhile fun character =>
    character == ' ' || character == '\n' || character == '\r' || character == '\t'

/-- The number written by four hexadecimal digits. -/
def readHex : List Char -> Option (Nat × List Char)
  | a :: b :: c :: d :: rest =>
      let digit := fun (character : Char) =>
        if character.isDigit then some (character.toNat - 48)
        else if 'a' ≤ character && character ≤ 'f' then some (character.toNat - 87)
        else if 'A' ≤ character && character ≤ 'F' then some (character.toNat - 55)
        else none
      match digit a, digit b, digit c, digit d with
      | some a, some b, some c, some d => some (((a * 16 + b) * 16 + c) * 16 + d, rest)
      | _, _, _, _ => none
  | _ => none

/-- Reads a character written by its code, or by the two halves of its code. -/
def readCode (characters : List Char) : Option (Char × List Char) := do
  let (code, rest) <- readHex characters
  if 0xD800 ≤ code && code < 0xDC00 then
    match rest with
    | '\\' :: 'u' :: rest =>
        let (low, rest) <- readHex rest
        if 0xDC00 ≤ low && low < 0xE000 then
          some (Char.ofNat (0x10000 + (code - 0xD800) * 0x400 + (low - 0xDC00)), rest)
        else none
    | _ => none
  else if 0xDC00 ≤ code && code < 0xE000 then none
  else some (Char.ofNat code, rest)

/-- Reads the rest of a quoted text; `read` holds what was read so far, last character first. -/
def readQuoted : Nat -> List Char -> List Char -> Option (String × List Char)
  | 0, _, _ => none
  | _ + 1, _, [] => none
  | budget + 1, read, character :: rest =>
      match character, rest with
      | '"', rest => some (String.ofList read.reverse, rest)
      | '\\', 'u' :: rest => do
          let (decoded, rest) <- readCode rest
          readQuoted budget (decoded :: read) rest
      | '\\', letter :: rest => do
          let decoded <-
            match letter with
            | '"' => some '"'
            | '\\' => some '\\'
            | '/' => some '/'
            | 'b' => some (Char.ofNat 8)
            | 'f' => some (Char.ofNat 12)
            | 'n' => some '\n'
            | 'r' => some '\r'
            | 't' => some '\t'
            | _ => none
          readQuoted budget (decoded :: read) rest
      | '\\', [] => none
      | other, rest =>
          if other.toNat < 32 then none else readQuoted budget (other :: read) rest

def dropWord (word : String) (characters : List Char) : Option (List Char) :=
  if word.toList.isPrefixOf characters then some (characters.drop word.length) else none

mutual

def readValue : Nat -> List Char -> Option (Json × List Char)
  | 0, _ => none
  | budget + 1, characters =>
      match skipBlanks characters with
      | '"' :: rest => (readQuoted budget [] rest).map fun found => (.text found.1, found.2)
      | '[' :: rest =>
          match skipBlanks rest with
          | ']' :: rest => some (.list [], rest)
          | rest => (readItems budget rest).map fun found => (.list found.1, found.2)
      | '\x7b' :: rest =>
          match skipBlanks rest with
          | '\x7d' :: rest => some (.object [], rest)
          | rest => (readFields budget rest).map fun found => (.object found.1, found.2)
      | 'n' :: rest => (dropWord "ull" rest).map fun rest => (.null, rest)
      | 't' :: rest => (dropWord "rue" rest).map fun rest => (.bool true, rest)
      | 'f' :: rest => (dropWord "alse" rest).map fun rest => (.bool false, rest)
      | other => readNumber other

def readItems : Nat -> List Char -> Option (List Json × List Char)
  | 0, _ => none
  | budget + 1, characters => do
      let (item, rest) <- readValue budget characters
      match skipBlanks rest with
      | ',' :: rest =>
          let (items, rest) <- readItems budget rest
          some (item :: items, rest)
      | ']' :: rest => some ([item], rest)
      | _ => none

/-- Reads the fields of an object up to its closing brace. -/
def readFields : Nat -> List Char -> Option (List (String × Json) × List Char)
  | 0, _ => none
  | budget + 1, characters =>
      match skipBlanks characters with
      | '"' :: rest => do
          let (name, rest) <- readQuoted budget [] rest
          match skipBlanks rest with
          | ':' :: rest =>
              let (value, rest) <- readValue budget rest
              match skipBlanks rest with
              | ',' :: rest =>
                  let (fields, rest) <- readFields budget rest
                  some ((name, value) :: fields, rest)
              | '\x7d' :: rest => some ([(name, value)], rest)
              | _ => none
          | _ => none
      | _ => none

end

/-- Reads a text that holds one value and nothing else. -/
def read? (text : String) : Option Json := do
  let characters := text.toList
  let (value, rest) <- readValue (characters.length + 1) characters
  if (skipBlanks rest).isEmpty then some value else none

end Json
end Commonplace
