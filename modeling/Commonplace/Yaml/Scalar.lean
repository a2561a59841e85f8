import Commonplace.Yaml.Cell

namespace Commonplace
namespace Yaml

/-!
# Scalars

The text of a scalar in its five spellings: plain, in single or double quotes, and as a literal or
folded block.  Where a scalar runs over several lines, one line break becomes a space, and of
several all but the first are kept.
-/

/-- Blanks and line breaks that were read inside a scalar and not yet added to it. -/
structure Folding where
  spaces : List Char
  broken : Bool
  first : List Char
  others : List Char

namespace Folding

/-- Nothing was read. -/
def none : Folding :=
  ⟨[], false, [], []⟩

/-- A line break that was read and leaves nothing. -/
def escaped : Folding :=
  ⟨[], true, [], []⟩

/-- Adds a blank or a line break.  Blanks at the start of a line do not count. -/
def add (folding : Folding) (character : Char) : Folding :=
  if isSpace character then
    if folding.broken then folding
    else { folding with spaces := folding.spaces ++ [character] }
  else if folding.broken then { folding with others := folding.others ++ [character] }
  else ⟨[], true, [character], folding.others⟩

/-- The text that line breaks become. -/
def joinBreaks (first others : List Char) : List Char :=
  if first == ['\n'] then (if others.isEmpty then [' '] else others) else first ++ others

/-- The text that blanks and line breaks become. -/
def text (folding : Folding) : List Char :=
  if folding.broken then joinBreaks folding.first folding.others else folding.spaces

end Folding

def hexValue (character : Char) : Option Nat :=
  if character.isDigit then some (character.toNat - 48)
  else if 'a' ≤ character && character ≤ 'f' then some (character.toNat - 87)
  else if 'A' ≤ character && character ≤ 'F' then some (character.toNat - 55)
  else none

def hexNumber (digits : List Char) : Option Nat :=
  digits.foldlM (fun total digit => (hexValue digit).map fun value => total * 16 + value) 0

/-- The character with a code, unless it is one half of a pair or out of range. -/
def charOf (code : Nat) : Option Char :=
  if code.isValidChar then some (Char.ofNat code) else none

/-- The character that a letter stands for after a backslash. -/
def escapeOf (letter : Char) : Option Char :=
  match letter with
  | '0' => some (Char.ofNat 0)
  | 'a' => some (Char.ofNat 7)
  | 'b' => some (Char.ofNat 8)
  | 't' | '\t' => some '\t'
  | 'n' => some '\n'
  | 'v' => some (Char.ofNat 11)
  | 'f' => some (Char.ofNat 12)
  | 'r' => some '\r'
  | 'e' => some (Char.ofNat 27)
  | ' ' => some ' '
  | '"' => some '"'
  | '/' => some '/'
  | '\\' => some '\\'
  | 'N' => some (Char.ofNat 0x85)
  | '_' => some (Char.ofNat 0xA0)
  | 'L' => some (Char.ofNat 0x2028)
  | 'P' => some (Char.ofNat 0x2029)
  | _ => none

/-- The number of digits that a letter announces after a backslash. -/
def escapeLength (letter : Char) : Nat :=
  match letter with
  | 'x' => 2
  | 'u' => 4
  | 'U' => 8
  | _ => 0

/-- Reads what follows a backslash. -/
def readEscape (cells : List Cell) : Option (Char × List Cell) :=
  let letter := ahead cells 0
  let length := escapeLength letter
  if length == 0 then (escapeOf letter).map fun character => (character, cells.drop 1)
  else do
    let digits := (cells.drop 1).take length
    if digits.length < length then none
    else
      let code <- hexNumber (digits.map Cell.character)
      let character <- charOf code
      some (character, cells.drop (length + 1))

/-- Reads a quoted scalar after its opening quote.  `read` holds what was read, last character
first, and `folding` the blanks that were read after it, if there are any. -/
def readQuoted (quote : Char) : Nat -> List Char -> Option Folding -> List Cell ->
    Option (List Char × List Cell)
  | 0, _, _, _ => none
  | _ + 1, _, _, [] => none
  | budget + 1, read, folding, cell :: rest =>
      let character := cell.character
      if isSpace character || isBreak character then
        readQuoted quote budget read (some ((folding.getD .none).add character)) rest
      else if folding.isSome && atDocumentMark (cell :: rest) then none
      else
        let read := ((folding.map Folding.text).getD []).reverse ++ read
        if character == final then none
        else if character == quote then
          if quote == '\'' && ahead rest 0 == '\'' then
            readQuoted quote budget ('\'' :: read) none (rest.drop 1)
          else some (read.reverse, rest)
        else if quote == '"' && character == '\\' then
          if isBreak (ahead rest 0) then
            readQuoted quote budget read (some .escaped) (rest.drop 1)
          else
            match readEscape rest with
            | some (decoded, rest) => readQuoted quote budget (decoded :: read) none rest
            | none => none
        else readQuoted quote budget (character :: read) none rest

/-- What was read of a plain scalar: its text, whether a line break came after it, and the rest. -/
structure PlainText where
  text : List Char
  broken : Bool
  rest : List Cell

/-- Whether a character separates the items of a flow collection. -/
def isFlowMark (character : Char) : Bool :=
  character == ',' || character == '[' || character == ']' || character == '\x7b' ||
    character == '\x7d'

/-- Reads a plain scalar.  Outside of flow collections it ends at a line that is indented less
than `indent`. -/
def readPlain (inFlow : Bool) (indent : Int) (read : List Char) (folding : Option Folding) :
    List Cell -> Option PlainText
  | [] => some ⟨read.reverse, folding.any Folding.broken, []⟩
  | cell :: rest =>
      let character := cell.character
      let done : PlainText :=
        ⟨read.reverse, folding.any Folding.broken, cell :: rest⟩
      if isSpace character || isBreak character then
        if character == '\t' && folding.any Folding.broken && (cell.column : Int) < indent then
          none
        else
          readPlain inFlow indent read (some ((folding.getD .none).add character)) rest
      else if folding.isSome && ((!inFlow && (cell.column : Int) < indent) ||
          atDocumentMark (cell :: rest) || character == '#') then
        some done
      else if character == final then some done
      else if inFlow && character == ':' &&
          (isFlowMark (ahead rest 0) || ahead rest 0 == '?') then
        none
      else if (character == ':' && endsWord (ahead rest 0)) ||
          (inFlow && isFlowMark character) then
        some done
      else
        let read := ((folding.map Folding.text).getD []).reverse ++ read
        readPlain inFlow indent (character :: read) none rest

/-- What happens to the line breaks at the end of a block. -/
inductive Chomping where
  | clip
  | strip
  | keep
  deriving DecidableEq

/-- What the first line of a block says. -/
structure BlockHeader where
  chomping : Chomping
  increment : Nat

/-- The chomping that a sign asks for. -/
def chompingOf (character : Char) : Option Chomping :=
  if character == '+' then some .keep else if character == '-' then some .strip else none

/-- Reads the two signs after the mark of a block, in either order. -/
def readHeader (cells : List Cell) : Option (BlockHeader × List Cell) :=
  let digit := fun (cells : List Cell) =>
    let character := ahead cells 0
    if character == '0' then none
    else if character.isDigit then some (character.toNat - 48, cells.drop 1)
    else some (0, cells)
  match chompingOf (ahead cells 0) with
  | some chomping => do
      let (increment, rest) <- digit (cells.drop 1)
      some (⟨chomping, increment⟩, rest)
  | none => do
      let (increment, rest) <- digit cells
      match increment, chompingOf (ahead rest 0) with
      | _ + 1, some chomping => some (⟨chomping, increment⟩, rest.drop 1)
      | _, _ => some (⟨.clip, increment⟩, rest)

/-- Drops the blanks, the comment and the line break at the end of a line. -/
def finishLine (cells : List Cell) : Option (List Cell) :=
  let rest := skipWhile isSpace cells
  let rest :=
    if ahead rest 0 == '#' then skipWhile (fun character => !endsLine character) rest else rest
  if isBreak (ahead rest 0) then some (rest.drop 1)
  else if ahead rest 0 == final then some rest
  else none

/-- The empty lines in front of a line of a block. -/
structure EmptyLines where
  widest : Nat
  breaks : List Char
  rest : List Cell

/-- Drops the indentation and the empty lines in front of a line of a block.  An indentation of
zero is not known yet. -/
def readEmptyLines (indent widest : Nat) (breaks : List Char) : List Cell -> Option EmptyLines
  | [] => some ⟨widest, breaks, []⟩
  | cell :: rest =>
      let inside := indent == 0 || cell.column < indent
      if inside && cell.character == ' ' then readEmptyLines indent widest breaks rest
      else
        let widest := max widest cell.column
        if inside && cell.character == '\t' then none
        else if isBreak cell.character then
          readEmptyLines indent widest (breaks ++ [cell.character]) rest
        else some ⟨widest, breaks, cell :: rest⟩

structure BlockText where
  text : List Char
  leading : List Char
  trailing : List Char
  rest : List Cell

/-- Reads the lines of a block.  `leading` is the break at the end of the last line, `trailing` the
breaks of the empty lines after it, and `blank` says whether the last line began with a blank. -/
def readLines (folded : Bool) (indent : Nat) : Nat -> List Char -> List Char -> List Char -> Bool ->
    List Cell -> Option BlockText
  | 0, _, _, _, _, _ => none
  | budget + 1, text, leading, trailing, blank, cells =>
      if column cells == indent && ahead cells 0 != final then
        let startsBlank := isSpace (ahead cells 0)
        let joined :=
          if folded && leading == ['\n'] && !blank && !startsBlank then
            if trailing.isEmpty then [' '] else []
          else leading
        let content := takeChars (fun character => !endsLine character) cells
        let rest := skipWhile (fun character => !endsLine character) cells
        let (ending, rest) :=
          if isBreak (ahead rest 0) then ([ahead rest 0], rest.drop 1) else ([], rest)
        match readEmptyLines indent 0 [] rest with
        | none => none
        | some found =>
            readLines folded indent budget (text ++ joined ++ trailing ++ content) ending
              found.breaks startsBlank found.rest
      else some ⟨text, leading, trailing, cells⟩

/-- Reads a block after its mark.  `parent` is the indentation of what holds it. -/
def readBlock (folded : Bool) (parent : Int) (cells : List Cell) :
    Option (List Char × List Cell) := do
  let (header, rest) <- readHeader cells
  let rest <- finishLine rest
  let given : Nat :=
    if header.increment == 0 then 0
    else if 0 ≤ parent then parent.toNat + header.increment
    else header.increment
  let empty <- readEmptyLines given 0 [] rest
  let indent := if given == 0 then max (max empty.widest (parent + 1).toNat) 1 else given
  let block <- readLines folded indent (rest.length + 1) [] [] empty.breaks false empty.rest
  let ending :=
    match header.chomping with
    | .strip => []
    | .clip => block.leading
    | .keep => block.leading ++ block.trailing
  some (block.text ++ ending, block.rest)

end Yaml
end Commonplace
