import Commonplace.Glob.Fault
import Commonplace.Glob.Pattern

namespace Commonplace
namespace Glob

/-!
# Reading path patterns

A question mark stands for one byte and a star for any bytes.  Two stars that fill the place
between slashes stand for any directories.  Brackets hold a class of characters, braces hold
alternatives, and a backslash takes the next character as it is.
-/

def bytesOf (character : Char) : List UInt8 :=
  (String.singleton character).toUTF8.toList

/-- The ranges of bytes for a range of characters.  Where a character takes several bytes, only
the last byte of the first character and the first byte of the last one span a range. -/
def byteRanges (first last : Char) : List (UInt8 × UInt8) :=
  let single := fun (value : UInt8) => (value, value)
  if first == last then (bytesOf first).map single
  else
    match (bytesOf first).reverse, bytesOf last with
    | low :: before, high :: after =>
        (before.map single).reverse ++ (low, high) :: after.map single
    | _, _ => []

structure ClassState where
  ranges : List (Char × Char)
  pending : Bool

/-- Adds a character to a class; after a dash it ends the range that was begun. -/
def ClassState.add (state : ClassState) (character : Char) : Except GlobFault ClassState :=
  match state.pending, state.ranges with
  | true, (first, _) :: others =>
      if character < first then .error (.invalidRange first character)
      else .ok ⟨(first, character) :: others, false⟩
  | _, ranges => .ok ⟨(character, character) :: ranges, false⟩

/-- The ranges of a class that was read up to its bracket.  A dash at the end is itself. -/
def ClassState.result (state : ClassState) : List (Char × Char) :=
  (if state.pending then ('-', '-') :: state.ranges else state.ranges).reverse

/-- Reads a class of characters up to its closing bracket.  The first character is never the
closing bracket and never a range. -/
def readClass (first : Bool) (state : ClassState) :
    List Char -> Except GlobFault (List (Char × Char) × List Char)
  | [] => .error .unclosedClass
  | character :: rest =>
      if character == ']' && !first then .ok (state.result, rest)
      else if character == '-' && !first && !state.pending then
        readClass false { state with pending := true } rest
      else
        match state.add character with
        | .ok state => readClass false state rest
        | .error fault => .error fault

/-- What was read of a pattern: the parts of the branch at hand, last first, and for every open
brace the parts before it and the branches that are finished. -/
structure ReadState where
  current : List Part
  braces : List (List Part × List (List Part))
  previous : Option Char

namespace ReadState

/-- Adds a part, read from a text that ends with a given character. -/
def push (state : ReadState) (part : Part) (last : Char) : ReadState :=
  { state with current := part :: state.current, previous := some last }

def pushChar (state : ReadState) (character : Char) : ReadState where
  current := (bytesOf character).reverse.map Part.byte ++ state.current
  braces := state.braces
  previous := some character

/-- Adds two stars that do not stand for directories. -/
def pushTwoStars (state : ReadState) : ReadState :=
  (state.push .anyBytes '*').push .anyBytes '*'

/-- Replaces the separator before two stars by the part for the directories. -/
def replaceSeparator (state : ReadState) (part : Part) (last : Char) : ReadState :=
  match state.current with
  | .leadingDirectories :: _ | .everythingBelow :: _ => { state with previous := some last }
  | _ :: before => { state with current := part :: before, previous := some last }
  | [] => state.push part last

/-- Whether two stars may stand for directories, judged by what is before them. -/
def opensDirectories (state : ReadState) : Bool :=
  state.previous == some '/' ||
    (!state.braces.isEmpty && (state.previous == some ',' || state.previous == some '\x7b'))

/-- Adds two stars and, where they stand for directories, the slash after them. -/
def twoStars (state : ReadState) (rest : List Char) : ReadState × List Char :=
  if state.current.isEmpty then
    match rest with
    | [] => (state.push .leadingDirectories '*', [])
    | '/' :: rest => (state.push .leadingDirectories '/', rest)
    | rest => (state.pushTwoStars, rest)
  else if !state.opensDirectories then (state.pushTwoStars, rest)
  else
    match rest with
    | [] => (state.replaceSeparator .everythingBelow '*', [])
    | '/' :: rest => (state.replaceSeparator .innerDirectories '/', rest)
    | next :: rest =>
        if (next == ',' || next == '\x7d') && !state.braces.isEmpty then
          (state.replaceSeparator .everythingBelow '*', next :: rest)
        else (state.pushTwoStars, next :: rest)

def openBrace (state : ReadState) : ReadState where
  current := []
  braces := (state.current, []) :: state.braces
  previous := some '\x7b'

/-- Ends a branch; outside of braces a comma is itself. -/
def comma (state : ReadState) : ReadState :=
  match state.braces with
  | [] => state.pushChar ','
  | (before, branches) :: outer =>
      ⟨[], (before, state.current.reverse :: branches) :: outer, some ','⟩

/-- Closes a group of alternatives. -/
def closeBrace (state : ReadState) : Except GlobFault ReadState :=
  match state.braces with
  | [] => .error .unopenedAlternatives
  | (before, branches) :: outer =>
      let all := (state.current.reverse :: branches).reverse
      .ok ⟨.alternatives all :: before, outer, some '\x7d'⟩

end ReadState

/-- Reads a pattern.  Every step takes at least one character, so a budget of one step for each
character, and one more, is never used up. -/
def readParts : Nat -> ReadState -> List Char -> Except GlobFault (List Part)
  | 0, state, _ => .ok state.current.reverse
  | _ + 1, state, [] =>
      if state.braces.isEmpty then .ok state.current.reverse else .error .unclosedAlternatives
  | budget + 1, state, character :: rest =>
      match character, rest with
      | '?', rest => readParts budget (state.push .anyByte '?') rest
      | '*', '*' :: rest =>
          let (state, rest) := state.twoStars rest
          readParts budget state rest
      | '*', rest => readParts budget (state.push .anyBytes '*') rest
      | '[', rest => do
          let negated := rest.head? == some '!' || rest.head? == some '^'
          let (ranges, rest) <- readClass true ⟨[], false⟩ (if negated then rest.tail else rest)
          let part := Part.oneOf negated (ranges.flatMap fun range => byteRanges range.1 range.2)
          readParts budget (state.push part ']') rest
      | '\x7b', rest => readParts budget state.openBrace rest
      | '\x7d', rest => do
          let state <- state.closeBrace
          readParts budget state rest
      | ',', rest => readParts budget state.comma rest
      | '\\', [] => .error .danglingEscape
      | '\\', next :: rest => readParts budget (state.pushChar next) rest
      | other, rest => readParts budget (state.pushChar other) rest

def read (pattern : String) : Except GlobError (List Part) :=
  let characters := pattern.toList
  match readParts (characters.length + 1) ⟨[], [], none⟩ characters with
  | .ok parts => .ok parts
  | .error fault => .error ⟨pattern, fault⟩

/-- Whether a pattern that was read matches a whole text. -/
def matchesText (parts : List Part) (text : String) : Bool :=
  matchesBytes parts text.toUTF8.toList

end Glob
end Commonplace
