namespace Commonplace
namespace Text

/-!
# Blank characters

The blank characters are those with the Unicode property White_Space.  Everything that trims,
collapses or splits at blanks uses this one predicate.  Texts are handled as lists of characters;
the functions on `String` wrap them.
-/

/-- Whether a character has the Unicode property White_Space. -/
def isBlank (character : Char) : Bool :=
  let codePoint := character.toNat
  (9 ≤ codePoint && codePoint ≤ 13) || codePoint == 32 || codePoint == 133 || codePoint == 160 ||
    codePoint == 5760 || (8192 ≤ codePoint && codePoint ≤ 8202) || codePoint == 8232 ||
    codePoint == 8233 || codePoint == 8239 || codePoint == 8287 || codePoint == 12288

/-- Drops the characters at the end that satisfy a predicate. -/
def dropEndWhile (drop : Char -> Bool) (characters : List Char) : List Char :=
  (characters.reverse.dropWhile drop).reverse

/-- Drops the characters at both ends that satisfy a predicate. -/
def dropEndsWhile (drop : Char -> Bool) (characters : List Char) : List Char :=
  dropEndWhile drop (characters.dropWhile drop)

/-- Drops the blanks at both ends. -/
def trimChars (characters : List Char) : List Char :=
  dropEndsWhile isBlank characters

/-- The text without the blanks at its ends. -/
def trim (text : String) : String :=
  String.ofList (trimChars text.toList)

/-- Whether a text holds nothing but blanks. -/
def isBlankText (text : String) : Bool :=
  text.toList.all isBlank

/-- The maximal runs of characters that satisfy a predicate, in order. -/
def runs (keep : Char -> Bool) (characters : List Char) : List (List Char) :=
  (characters.splitOnP fun character => !keep character).filter fun run => !run.isEmpty

/-- The words of a text: its maximal runs of characters that are not blank. -/
def words (characters : List Char) : List (List Char) :=
  runs (fun character => !isBlank character) characters

/-- The words of a text, with one space between them. -/
def collapseChars (characters : List Char) : List Char :=
  [' '].intercalate (words characters)

/-- Replaces every run of blanks by one space and drops the blanks at the ends. -/
def collapse (text : String) : String :=
  String.ofList (collapseChars text.toList)

/-- Cuts a text to at most `limit` characters, the last three of which are dots when it is cut.
Blanks before the dots go too. -/
def truncateChars (limit : Nat) (characters : List Char) : List Char :=
  if characters.length ≤ limit then characters
  else dropEndWhile isBlank (characters.take (limit - 3)) ++ ['.', '.', '.']

/-- Cuts a text to at most `limit` characters. -/
def truncate (limit : Nat) (text : String) : String :=
  String.ofList (truncateChars limit text.toList)

end Text
end Commonplace
