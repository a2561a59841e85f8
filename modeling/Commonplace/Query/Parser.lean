import Commonplace.Query.Expr
import Commonplace.Query.Language
import Commonplace.Query.ParseError
import Commonplace.Query.Spelling
import Commonplace.Text.Blank
import Commonplace.Text.LowerCase

namespace Commonplace
namespace QueryLanguage

/-!
# Reading queries

A query text is read in two steps.  The scan takes it apart into expressions and the keyword `OR`,
from left to right, and stops at the first fault.  The items are then put together: expressions
that stand side by side form a chain, and chains are joined at the keywords, from the left.  There
are no brackets.

Nothing here counts positions.  A fault carries the text that was still unread where it arose, and
the place follows from how much was read before it.
-/

/-- A fault together with the text that was unread where it arose. -/
structure Failure where
  fault : ParseFault
  unread : List Char

/-- The characters of a word: everything up to a blank or a stop character. -/
def wordChars (stops : List Char) (characters : List Char) : List Char :=
  characters.takeWhile fun character => !Text.isBlank character && !stops.contains character

def afterWord (stops : List Char) (characters : List Char) : List Char :=
  characters.dropWhile fun character => !Text.isBlank character && !stops.contains character

/-- Whether a text starts with the keyword `OR`, standing alone. -/
def startsWithOr : List Char -> Bool
  | 'O' :: 'R' :: rest => rest.head?.all Text.isBlank
  | _ => false

/-- Reads a quoted value.  The text starts with the opening quote. -/
def readQuoted (characters : List Char) : Except Failure (String × List Char) :=
  let isInside := fun character => character != '"'
  match characters.tail.dropWhile isInside with
  | _ :: rest => .ok (String.ofList (characters.tail.takeWhile isInside), rest)
  | [] => .error ⟨.openQuote, characters⟩

/-- Reads the comparison in front of a value; without one the value has to be equal. -/
def readComparison : List Char -> Comparison × List Char
  | '>' :: '=' :: rest => (.atLeast, rest)
  | '<' :: '=' :: rest => (.atMost, rest)
  | '>' :: rest => (.greater, rest)
  | '<' :: rest => (.less, rest)
  | rest => (.equals, rest)

/-- Whether a value is a pattern: it has a star, and something beside stars. -/
def isPattern (value : String) : Bool :=
  value.toList.any WildcardKind.isStar && !value.toList.all WildcardKind.isStar

/-- The expression for a word without a field. -/
def bareWord (word : String) : Expr :=
  if isPattern word then .wildcardOf "" word else .term word

/-- The two sides of the first `..` in a value. -/
def splitRange : List Char -> Option (List Char × List Char)
  | '.' :: '.' :: rest => some ([], rest)
  | character :: rest =>
      (splitRange rest).map fun sides => (character :: sides.1, sides.2)
  | [] => none

/-- The expression for a date field.  A range is only read from a plain value. -/
def dateExpr (name : String) (comparison : Comparison) (value : String) (quoted : Bool)
    (valueStart : List Char) : Except Failure Expr :=
  if quoted || comparison != .equals then .ok (.date name comparison value)
  else
    match splitRange value.toList with
    | some (start, stop) =>
        if start.isEmpty || stop.isEmpty then .error ⟨.openRange, valueStart⟩
        else .ok (.range name (String.ofList start) (String.ofList stop))
    | none => .ok (.date name comparison value)

def fieldExpr (name : String) (comparison : Comparison) (value : String) (quoted : Bool)
    (valueStart : List Char) : Except Failure Expr :=
  if dateFieldNames.contains name then dateExpr name comparison value quoted valueStart
  else if !quoted && comparison == .equals && isPattern value then .ok (.wildcardOf name value)
  else .ok (.field name comparison value)

/-- Reads the value of a field, plain or quoted, and says whether it was quoted. -/
def readValue (name : String) (characters : List Char) :
    Except Failure (String × Bool × List Char) :=
  if characters.head? == some '"' then
    (readQuoted characters).map fun found => (found.1, true, found.2)
  else
    match wordChars ['"'] characters with
    | [] => .error ⟨.missingValue name, characters⟩
    | word => .ok (String.ofList word, false, afterWord ['"'] characters)

/-- Reads the name after a word that asks for presence. -/
def readPresence (keyword : String) (characters : List Char) :
    Except Failure (Expr × List Char) :=
  match wordChars ['"', ':'] characters with
  | [] => .error ⟨.missingName keyword, characters⟩
  | name =>
      .ok (.exists (Text.lower (String.ofList name)) (keyword == "missing"),
        afterWord ['"', ':'] characters)

/-- The nearest name that may stand before a colon. -/
def closestName (name : String) : Option String :=
  Spelling.closest 2 name (fieldNames ++ presenceWords)

/-- Reads what follows the colon after a word.  `start` is the text from the word on. -/
def readField (word : List Char) (start characters : List Char) :
    Except Failure (Expr × List Char) :=
  let name := Text.lower (String.ofList word)
  if characters.head? == some ':' then .error ⟨.doubledColon, characters⟩
  else if presenceWords.contains name then readPresence name characters
  else if !fieldNames.contains name then
    .error ⟨.unknownField (String.ofList word) (closestName name), start⟩
  else
    let (comparison, valueStart) := readComparison characters
    match readValue name valueStart with
    | .error failure => .error failure
    | .ok (value, quoted, rest) =>
        (fieldExpr name comparison value quoted valueStart).map fun expression =>
          (expression, rest)

/-- Reads an expression without a dash. -/
def readAtom (characters : List Char) : Except Failure (Expr × List Char) :=
  if characters.head? == some '"' then
    (readQuoted characters).map fun found => (.term found.1, found.2)
  else
    let word := wordChars ['"', ':'] characters
    match afterWord ['"', ':'] characters with
    | ':' :: rest =>
        if word.isEmpty then .error ⟨.nothingBeforeColon, characters⟩
        else readField word characters rest
    | rest => .ok (bareWord (String.ofList word), rest)

/-- Reads one expression, which a dash in front negates. -/
def readExpr (characters : List Char) : Except Failure (Expr × List Char) :=
  match characters with
  | '-' :: rest =>
      if rest.head?.all Text.isBlank then .error ⟨.nothingAfterDash, characters⟩
      else (readAtom rest).map fun found => (.not found.1, found.2)
  | _ => readAtom characters

/-- An item of a query text: an expression, or the keyword with the text that starts at it. -/
inductive Item where
  | expr (expression : Expr)
  | or (unread : List Char)

/-- What a scan found: the items up to the end of the text or up to the first fault. -/
structure Scan where
  items : List Item
  failure : Option Failure

/-- Takes a text apart.  Every item is shorter than what it is read from, so a budget of one step
for each character is never used up. -/
def scanWithin : Nat -> List Char -> Scan
  | 0, _ => ⟨[], none⟩
  | budget + 1, characters =>
      match characters.dropWhile Text.isBlank with
      | [] => ⟨[], none⟩
      | start =>
          if startsWithOr start then
            let scan := scanWithin budget (start.drop 2)
            ⟨.or start :: scan.items, scan.failure⟩
          else
            match readExpr start with
            | .error failure => ⟨[], some failure⟩
            | .ok (expression, rest) =>
                let scan := scanWithin budget rest
                ⟨.expr expression :: scan.items, scan.failure⟩

def scan (characters : List Char) : Scan :=
  scanWithin (characters.length + 1) characters

/-- Whether an expression, or a fault in one, comes next. -/
def exprFollows (items : List Item) (failure : Option Failure) : Bool :=
  match items with
  | .expr _ :: _ => true
  | .or _ :: _ => false
  | [] => failure.isSome

/-- Puts items together to chains.  `chain` holds the chain that is being read. -/
def chainsFrom (failure : Option Failure) (chain : List Expr) :
    List Item -> Except Failure (List (List Expr))
  | [] =>
      match failure with
      | some failure => .error failure
      | none => .ok [chain]
  | .expr expression :: rest => chainsFrom failure (chain ++ [expression]) rest
  | .or unread :: rest =>
      if exprFollows rest failure then
        (chainsFrom failure [] rest).map fun chains => chain :: chains
      else .error ⟨.nothingAfterOr, unread⟩

/-- The chains of a scan; a text without any item has a single, empty chain. -/
def Scan.chains (scan : Scan) : Except Failure (List (List Expr)) :=
  match scan.items with
  | .or unread :: _ => .error ⟨.nothingBeforeOr, unread⟩
  | items => chainsFrom scan.failure [] items

/-- Joins chains from the left.  A single chain stands for itself. -/
def joinChains : List (List Expr) -> List Expr
  | [] => []
  | [chain] => chain
  | first :: second :: rest =>
      let join := fun left chain => Expr.or left (.conjunction chain)
      [(second :: rest).foldl join (.conjunction first)]

def readExprs (characters : List Char) : Except Failure (List Expr) :=
  ((scan characters).chains).map joinChains

/-- The error that a failure means for the whole text. -/
def Failure.toError (input : String) (failure : Failure) : ParseError where
  fault := failure.fault
  place := Place.after (input.toList.take (input.toList.length - failure.unread.length))
  input := input

/-- Reads a query text. -/
def parse (input : String) : Except ParseError Query :=
  match readExprs input.toList with
  | .ok expressions => .ok ⟨expressions, input⟩
  | .error failure => .error (failure.toError input)

end QueryLanguage
end Commonplace
