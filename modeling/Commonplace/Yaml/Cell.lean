namespace Commonplace
namespace Yaml

/-!
# The characters of a YAML text

A YAML text is read as a list of cells, each a character with its line and column.  All ordinary
line breaks are one line feed.  The list ends with a null character, which no text may hold, so
there is always a next cell to look at.
-/

structure Cell where
  character : Char
  line : Nat
  column : Nat
  deriving Inhabited

/-- The character after the last one of a text. -/
def final : Char :=
  Char.ofNat 0

def isAllowed (character : Char) : Bool :=
  let code := character.toNat
  code == 9 || code == 10 || code == 13 || (32 ≤ code && code ≤ 126) || code == 133 ||
    (160 ≤ code && code ≤ 0xFFFD) || 0x10000 ≤ code

/-- Writes every line break as a line feed, except the separators of lines and paragraphs. -/
def unifyBreaks : List Char -> List Char
  | [] => []
  | '\r' :: '\n' :: rest => '\n' :: unifyBreaks rest
  | character :: rest =>
      (if character == '\r' || character.toNat == 133 then '\n' else character) ::
        unifyBreaks rest

def isBreak (character : Char) : Bool :=
  character == '\n' || character.toNat == 0x2028 || character.toNat == 0x2029

/-- Whether a character is a space or a tab. -/
def isSpace (character : Char) : Bool :=
  character == ' ' || character == '\t'

def endsLine (character : Char) : Bool :=
  isBreak character || character == final

def endsWord (character : Char) : Bool :=
  isSpace character || endsLine character

/-- The cells of some characters from a place on. -/
def placed (line column : Nat) : List Char -> List Cell
  | [] => [⟨final, line, column⟩]
  | character :: rest =>
      ⟨character, line, column⟩ ::
        if isBreak character then placed (line + 1) 0 rest else placed line (column + 1) rest

/-- The cells of a text, if it holds allowed characters only. -/
def cellsOf (text : List Char) : Option (List Cell) :=
  if text.all isAllowed then some (placed 0 0 (unifyBreaks text)) else none

/-- The character a number of cells ahead. -/
def ahead (cells : List Cell) (count : Nat) : Char :=
  match cells[count]? with
  | some cell => cell.character
  | none => final

def column (cells : List Cell) : Nat :=
  match cells with
  | cell :: _ => cell.column
  | [] => 0

/-- The line of the next cell. -/
def line (cells : List Cell) : Nat :=
  match cells with
  | cell :: _ => cell.line
  | [] => 0

/-- Whether a mark of three equal characters stands at the start of a line, followed by a blank. -/
def startsMark (mark : Char) (cells : List Cell) : Bool :=
  column cells == 0 && ahead cells 0 == mark && ahead cells 1 == mark && ahead cells 2 == mark &&
    endsWord (ahead cells 3)

/-- Whether a document starts or ends here. -/
def atDocumentMark (cells : List Cell) : Bool :=
  startsMark '-' cells || startsMark '.' cells

/-- Drops cells while their characters satisfy a test. -/
def skipWhile (test : Char -> Bool) (cells : List Cell) : List Cell :=
  cells.dropWhile fun cell => test cell.character

/-- The characters of the first cells that satisfy a test. -/
def takeChars (test : Char -> Bool) (cells : List Cell) : List Char :=
  (cells.takeWhile fun cell => test cell.character).map Cell.character

end Yaml
end Commonplace
