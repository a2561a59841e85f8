import Commonplace.Yaml.Scalar

namespace Commonplace
namespace Yaml

/-!
# Tokens

A text is taken apart into tokens.  Indentation becomes opening and closing tokens.  Whether
something is a key is only known when a colon follows it, so the token for a key is put in front
of what was already read; until then its place is remembered as a possible key.
-/

inductive Token where
  | version (major minor : Nat)
  | tagRule (handle content : List Char)
  | documentStart
  | documentEnd
  | blockSequence
  | blockMapping
  | blockEnd
  | flowSequence
  | flowSequenceEnd
  | flowMapping
  | flowMappingEnd
  | blockEntry
  | flowEntry
  | key
  | value
  | alias (name : List Char)
  | anchor (name : List Char)
  | tag (handle content : List Char)
  | scalar (text : List Char) (isPlain : Bool)
  deriving DecidableEq, Inhabited

/-- A place where a key may have begun. -/
structure PossibleKey where
  required : Bool
  tokenNumber : Nat
  line : Nat
  column : Nat
  remaining : Nat

/-- What was read so far: the tokens, last first, and the indentations that are open. -/
structure Reading where
  rest : List Cell
  tokens : List Token
  flowDepth : Nat
  indent : Int
  indents : List Int
  keyAllowed : Bool
  /-- The possible key of every open flow collection, and of the block around them. -/
  keys : List (Option PossibleKey)

namespace Reading

def start (cells : List Cell) : Reading :=
  ⟨cells, [], 0, -1, [], true, [none]⟩

def push (state : Reading) (token : Token) : Reading :=
  { state with tokens := token :: state.tokens }

/-- Puts a token in front of the token with a given number. -/
def insertAt (state : Reading) (number : Nat) (token : Token) : Reading :=
  { state with tokens := state.tokens.insertIdx (state.tokens.length - number) token }

/-- Goes on after a number of cells. -/
def skip (state : Reading) (count : Nat) : Reading :=
  { state with rest := state.rest.drop count }

/-- Whether the scanner is inside a flow collection. -/
def inFlow (state : Reading) : Bool :=
  state.flowDepth != 0

/-- Opens a block at a column, unless it is open. -/
def openBlock (state : Reading) (column : Nat) (number : Option Nat) (token : Token) : Reading :=
  if state.inFlow || (column : Int) ≤ state.indent then state
  else
    let opened := { state with indents := state.indent :: state.indents, indent := column }
    match number with
    | some number => opened.insertAt number token
    | none => opened.push token

def closeBlocks (column : Int) : List Int -> Reading -> Reading
  | [], state => state
  | outer :: indents, state =>
      if state.indent ≤ column then state
      else
        closeBlocks column indents
          { state with tokens := .blockEnd :: state.tokens, indent := outer, indents := indents }

/-- Closes the blocks that are deeper than a column, outside of flow collections. -/
def close (state : Reading) (column : Int) : Reading :=
  if state.inFlow then state else closeBlocks column state.indents state

/-- Gives up a possible key, which is an error if one had to be there. -/
def dropKey (state : Reading) : Option Reading :=
  match state.keys with
  | some key :: keys => if key.required then none else some { state with keys := none :: keys }
  | _ => some state

/-- Remembers that a key may begin here. -/
def markKey (state : Reading) : Option Reading :=
  if !state.keyAllowed then some state
  else do
    let state <- state.dropKey
    let here := column state.rest
    let key : PossibleKey := ⟨!state.inFlow && state.indent == (here : Int), state.tokens.length,
      line state.rest, here, state.rest.length⟩
    some { state with keys := some key :: state.keys.tail }

/-- Whether a key that began at a place may still end here: on the same line, and not too far. -/
def mayEnd (key : PossibleKey) (cells : List Cell) : Bool :=
  line cells ≤ key.line && key.remaining ≤ cells.length + 1024

/-- Gives up the possible keys that cannot end here. -/
def dropStaleKeys (state : Reading) : Option Reading := do
  let keys <- state.keys.mapM fun found =>
    match found with
    | some key =>
        if mayEnd key state.rest then some (some key)
        else if key.required then none
        else some none
    | none => some none
  some { state with keys := keys }

/-- Drops blanks, comments and empty lines in front of a token.  Tabs do not count as blanks where
a key may begin in a block. -/
def skipToToken : Nat -> Reading -> Reading
  | 0, state => state
  | budget + 1, state =>
      let state :=
        if column state.rest == 0 && (ahead state.rest 0).toNat == 0xFEFF then state.skip 1
        else state
      let tabs := state.inFlow || !state.keyAllowed
      let rest := skipWhile (fun character =>
        character == ' ' || (tabs && character == '\t')) state.rest
      let rest :=
        if ahead rest 0 == '#' then skipWhile (fun character => !endsLine character) rest
        else rest
      if isBreak (ahead rest 0) then
        skipToToken budget
          { state with rest := rest.drop 1, keyAllowed := state.keyAllowed || !state.inFlow }
      else { state with rest := rest }

/-- Adds a token of some cells after which a key is or is not allowed. -/
def mark (state : Reading) (token : Token) (count : Nat) (keyAllowed : Bool) : Reading :=
  { (state.push token).skip count with keyAllowed := keyAllowed }

def openFlow (state : Reading) (token : Token) : Option Reading := do
  let state <- state.markKey
  let opened := { state with keys := none :: state.keys, flowDepth := state.flowDepth + 1 }
  some (opened.mark token 1 true)

def closeFlow (state : Reading) (token : Token) : Option Reading := do
  let state <- state.dropKey
  let closed :=
    if state.inFlow then
      { state with keys := state.keys.tail, flowDepth := state.flowDepth - 1 }
    else state
  some (closed.mark token 1 false)

/-- Starts an item, or a key or value that is written with its mark, in a block. -/
def openEntry (state : Reading) (block token : Token) : Option Reading := do
  let state <-
    if state.inFlow then some state
    else if state.keyAllowed then
      some (state.openBlock (column state.rest) none block)
    else none
  let state <- state.dropKey
  some (state.mark token 1 (token == .blockEntry || !state.inFlow))

/-- Starts a value.  If a key may have begun before it, that was a key. -/
def openValue (state : Reading) : Option Reading :=
  match state.keys with
  | some key :: keys =>
      let state := state.insertAt key.tokenNumber .key
      let state := state.openBlock key.column (some key.tokenNumber) .blockMapping
      some ({ state with keys := none :: keys }.mark .value 1 false)
  | _ =>
      if state.inFlow then some (state.mark .value 1 false)
      else if state.keyAllowed then
        some ((state.openBlock (column state.rest) none .blockMapping).mark .value 1 true)
      else none

/-- Adds a token that may be a key and was read up to a rest. -/
def addContent (state : Reading) (token : Token) (rest : List Cell) : Option Reading :=
  state.markKey.map fun state =>
    { state.push token with rest := rest, keyAllowed := false }

end Reading

def isNameChar (character : Char) : Bool :=
  character.isAlphanum || character == '_' || character == '-'

/-- Whether a character may follow the name of an anchor or an alias. -/
def endsName (character : Char) : Bool :=
  endsWord character || "?:,]\x7d%@\x60".toList.contains character

def readName (cells : List Cell) : Option (List Char × List Cell) :=
  let name := takeChars isNameChar cells
  let rest := skipWhile isNameChar cells
  if name.isEmpty || !endsName (ahead rest 0) then none else some (name, rest)

def isAddressChar (inBrackets : Bool) (character : Char) : Bool :=
  isNameChar character || ";/?:@&=+$.!~*'()".toList.contains character ||
    (inBrackets && ",[]".toList.contains character)

/-- The number of bytes of a character that starts with a given byte. -/
def encodedLength (byte : Nat) : Nat :=
  if byte < 0x80 then 1
  else if byte < 0xC0 then 0
  else if byte < 0xE0 then 2
  else if byte < 0xF0 then 3
  else if byte < 0xF8 then 4
  else 0

/-- The byte written by a percent sign and two digits. -/
def readByte (cells : List Cell) : Option Nat :=
  if ahead cells 0 == '%' then hexNumber [ahead cells 1, ahead cells 2] else none

/-- Reads a character that is written by its bytes. -/
def readEncoded (cells : List Cell) : Option (Char × List Cell) := do
  let first <- readByte cells
  let length := encodedLength first
  if length == 0 then none
  else
    let bytes <- (List.range length).mapM fun position => readByte (cells.drop (3 * position))
    let decoded <- String.fromUTF8? (ByteArray.mk (bytes.map UInt8.ofNat).toArray)
    let character <- decoded.toList.head?
    some (character, cells.drop (3 * length))

def readAddress (inBrackets : Bool) : Nat -> List Char -> List Cell ->
    Option (List Char × List Cell)
  | 0, _, _ => none
  | _ + 1, read, [] => some (read.reverse, [])
  | budget + 1, read, cell :: rest =>
      if cell.character == '%' then
        match readEncoded (cell :: rest) with
        | some (decoded, rest) => readAddress inBrackets budget (decoded :: read) rest
        | none => none
      else if isAddressChar inBrackets cell.character then
        readAddress inBrackets budget (cell.character :: read) rest
      else some (read.reverse, cell :: rest)

/-- Reads the handle of a tag: an exclamation mark, a name, and perhaps another mark. -/
def readHandle (cells : List Cell) : Option (List Char × List Cell) :=
  if ahead cells 0 != '!' then none
  else
    let name := takeChars isNameChar (cells.drop 1)
    let rest := skipWhile isNameChar (cells.drop 1)
    if ahead rest 0 == '!' then some ('!' :: name ++ ['!'], rest.drop 1)
    else some ('!' :: name, rest)

def readTagParts (cells : List Cell) : Option (List Char × List Char × List Cell) :=
  if ahead cells 1 == '<' then do
    let (address, rest) <- readAddress true (cells.length + 1) [] (cells.drop 2)
    if address.isEmpty || ahead rest 0 != '>' then none else some ([], address, rest.drop 1)
  else do
    let (handle, rest) <- readHandle cells
    let (address, rest) <- readAddress false (cells.length + 1) [] rest
    if 1 < handle.length && handle.getLast? == some '!' then
      if address.isEmpty then none else some (handle, address, rest)
    else
      let content := handle.tail ++ address
      if content.isEmpty then some ([], ['!'], rest) else some (['!'], content, rest)

def readTag (inFlow : Bool) (cells : List Cell) : Option (Token × List Cell) := do
  let (handle, content, rest) <- readTagParts cells
  if endsWord (ahead rest 0) || (inFlow && ahead rest 0 == ',') then
    some (.tag handle content, rest)
  else none

/-- Reads a number of at most nine digits. -/
def readVersionPart (cells : List Cell) : Option (Nat × List Cell) :=
  let digits := takeChars Char.isDigit cells
  if digits.isEmpty || 9 < digits.length then none
  else
    some (digits.foldl (fun total digit => total * 10 + (digit.toNat - 48)) 0,
      cells.drop digits.length)

/-- Reads a directive, which starts with a percent sign at the start of a line. -/
def readDirective (cells : List Cell) : Option (Token × List Cell) := do
  let name := takeChars isNameChar (cells.drop 1)
  let rest := skipWhile isNameChar (cells.drop 1)
  if !endsWord (ahead rest 0) then none
  else if name == "YAML".toList then
    let (major, rest) <- readVersionPart (skipWhile isSpace rest)
    if ahead rest 0 != '.' then none
    else
      let (minor, rest) <- readVersionPart (rest.drop 1)
      let rest <- finishLine rest
      some (.version major minor, rest)
  else if name == "TAG".toList then
    let (handle, rest) <- readHandle (skipWhile isSpace rest)
    if !(handle == ['!'] || handle.getLast? == some '!') || !isSpace (ahead rest 0) then none
    else
      let start := skipWhile isSpace rest
      let (content, rest) <- readAddress true (cells.length + 1) [] start
      if content.isEmpty || !endsWord (ahead rest 0) then none
      else
        let rest <- finishLine rest
        some (.tagRule handle content, rest)
  else none

/-- Whether a plain scalar may begin here. -/
def startsPlain (inFlow : Bool) (cells : List Cell) : Bool :=
  let character := ahead cells 0
  if character == '-' then !isSpace (ahead cells 1)
  else if character == '?' || character == ':' then !inFlow && !endsWord (ahead cells 1)
  else !endsWord character && !",[]\x7b\x7d#&*!|>'\"%@\x60".toList.contains character

def readQuotedToken (state : Reading) (quote : Char) : Option Reading := do
  let (text, rest) <- readQuoted quote (state.rest.length + 1) [] none (state.rest.drop 1)
  state.addContent (.scalar text false) rest

/-- Reads a plain scalar.  A key may follow if it ended with a line break. -/
def readPlainToken (state : Reading) : Option Reading := do
  let found <- readPlain state.inFlow (state.indent + 1) [] none state.rest
  let state <- state.addContent (.scalar found.text true) found.rest
  some { state with keyAllowed := found.broken }

def readBlockToken (state : Reading) (folded : Bool) : Option Reading := do
  let state <- state.dropKey
  let (text, rest) <- readBlock folded state.indent (state.rest.drop 1)
  some { state.push (.scalar text false) with rest := rest, keyAllowed := true }

/-- Reads a directive or a mark of a document, which closes all blocks. -/
def readOuter (state : Reading) (token : Token) (rest : List Cell) : Option Reading := do
  let state <- (state.close (-1)).dropKey
  some { state.push token with rest := rest, keyAllowed := false }

/-- Reads the next token and whatever comes with it. -/
def readToken (state : Reading) : Option Reading :=
  let cells := state.rest
  let character := ahead cells 0
  let wordEnds := endsWord (ahead cells 1)
  if column cells == 0 && character == '%' then do
    let (token, rest) <- readDirective cells
    readOuter state token rest
  else if startsMark '-' cells then readOuter state .documentStart (cells.drop 3)
  else if startsMark '.' cells then readOuter state .documentEnd (cells.drop 3)
  else if character == '[' then state.openFlow .flowSequence
  else if character == '\x7b' then state.openFlow .flowMapping
  else if character == ']' then state.closeFlow .flowSequenceEnd
  else if character == '\x7d' then state.closeFlow .flowMappingEnd
  else if character == ',' then state.dropKey.map fun state => state.mark .flowEntry 1 true
  else if character == '-' && wordEnds then state.openEntry .blockSequence .blockEntry
  else if character == '?' && (state.inFlow || wordEnds) then state.openEntry .blockMapping .key
  else if character == ':' && (state.inFlow || wordEnds) then state.openValue
  else if character == '*' then do
    let (name, rest) <- readName (cells.drop 1)
    state.addContent (.alias name) rest
  else if character == '&' then do
    let (name, rest) <- readName (cells.drop 1)
    state.addContent (.anchor name) rest
  else if character == '!' then do
    let (token, rest) <- readTag state.inFlow cells
    state.addContent token rest
  else if character == '|' && !state.inFlow then readBlockToken state false
  else if character == '>' && !state.inFlow then readBlockToken state true
  else if character == '\'' || character == '"' then readQuotedToken state character
  else if startsPlain state.inFlow cells then readPlainToken state
  else none

/-- Reads all tokens.  Every token takes at least one cell. -/
def readTokens : Nat -> Reading -> Option (List Token)
  | 0, _ => none
  | budget + 1, state => do
      let state <- (Reading.skipToToken (state.rest.length + 1) state).dropStaleKeys
      let state := state.close (column state.rest)
      if ahead state.rest 0 == final then
        let state <- (state.close (-1)).dropKey
        some state.tokens.reverse
      else
        let state <- readToken state
        readTokens budget state

def tokensOf (text : List Char) : Option (List Token) := do
  let cells <- cellsOf text
  readTokens (cells.length + 1) (.start cells)

end Yaml
end Commonplace
