import Commonplace.Query.Parser

namespace Commonplace
namespace QueryLanguage

/-!
# Reading queries by bytes

A second reader of query texts, which keeps nothing but a byte offset into the text.  It can go
wrong where the reader by characters cannot: it can cut a character in two, pass over two bytes that
are not the keyword, or never come to an end.  These are outcomes of their own here, so that it can
be said of a text that none of them happens.
-/

/-- Why the reader by bytes stops before it has read a query. -/
inductive Stop where
  /-- The text cannot be read. -/
  | failed (error : ParseError)
  /-- A piece of text was asked for whose end is inside a character, or past the end. -/
  | cut (position : Nat)
  /-- Two bytes were passed over that are not the keyword, standing alone. -/
  | strayed (position : Nat)
  /-- A loop went round more often than the text has characters. -/
  | endless

/-- The chains that were joined so far: the first one, and what it was joined to with others. -/
structure Joined where
  first : List Expr
  left : Option Expr

def Joined.add (joined : Joined) (chain : List Expr) : Joined :=
  { joined with left := some (.or (joined.left.getD (.conjunction joined.first))
      (.conjunction chain)) }

/-- The expressions of a query that joins chains. -/
def Joined.exprs (joined : Joined) : List Expr :=
  match joined.left with
  | some joined => [joined]
  | none => joined.first

namespace Cursor

def textFrom (characters : List Char) (position : Nat) : Except Stop (List Char) :=
  match Text.splitAtByte? position characters with
  | some parts => .ok parts.2
  | none => .error (.cut position)

def textTo (characters : List Char) (position : Nat) : Except Stop (List Char) :=
  match Text.splitAtByte? position characters with
  | some parts => .ok parts.1
  | none => .error (.cut position)

/-- The number of bytes in front of the first of some characters. -/
def findByte? (wanted : Char) (characters : List Char) : Option Nat :=
  if characters.contains wanted then
    some (Text.byteSize (characters.takeWhile fun character => character != wanted))
  else none

/-- More than the number of characters of a text. -/
def budgetOf (input : String) : Nat :=
  input.toList.length + 1

section Reading

variable (input : String)

def peek (position : Nat) : Except Stop (Option Char) := do
  let rest ← textFrom input.toList position
  return rest.head?

/-- Whether a byte is past the last one. -/
def isAtEnd (position : Nat) : Bool :=
  input.utf8ByteSize ≤ position

def bump (position : Nat) : Except Stop Nat := do
  match ← peek input position with
  | some character => return position + character.utf8Size
  | none => return position

/-- Passes characters one by one. -/
def skipWhile (keep : Char -> Bool) : Nat -> Nat -> Except Stop Nat
  | 0, _ => .error .endless
  | budget + 1, position => do
      if (← peek input position).any keep then skipWhile keep budget (← bump input position)
      else return position

/-- Passes blanks. -/
def skipBlanks (position : Nat) : Except Stop Nat :=
  skipWhile input Text.isBlank (budgetOf input) position

def fail {α : Type} (position : Nat) (fault : ParseFault) : Except Stop α := do
  let before ← textTo input.toList (min position input.utf8ByteSize)
  .error (.failed ⟨fault, { Place.after before with offset := position }, input⟩)

/-- Whether the keyword is at a byte, standing alone. -/
def isAtKeyword (position : Nat) : Except Stop Bool := do
  let rest ← textFrom input.toList position
  if ['O', 'R'].isPrefixOf rest then
    let behind ← textFrom rest 2
    return behind.head?.all Text.isBlank
  else return false

/-- Passes two bytes.  The reader does not look at them; that they are the keyword is only asked
here to be able to say so. -/
def skipTwo (position : Nat) : Except Stop Nat := do
  if ← isAtKeyword input position then return position + 2
  else .error (.strayed position)

/-- Reads a word, up to a blank or a stop character. -/
def word (stops : List Char) (position : Nat) : Except Stop (List Char × Nat) := do
  let stop ← skipWhile input (fun character => !Text.isBlank character && !stops.contains character)
    (budgetOf input) position
  let before ← textTo input.toList stop
  return (← textFrom before position, stop)

def quoted (position : Nat) : Except Stop (String × Nat) := do
  let inside ← bump input position
  let rest ← textFrom input.toList inside
  match findByte? '"' rest with
  | none => fail input position .openQuote
  | some size => return (String.ofList (← textTo rest size), inside + (size + 1))

def comparison (position : Nat) : Except Stop (Comparison × Nat) := do
  let rest ← textFrom input.toList position
  if ['>', '='].isPrefixOf rest then return (.atLeast, position + 2)
  else if ['<', '='].isPrefixOf rest then return (.atMost, position + 2)
  else if ['>'].isPrefixOf rest then return (.greater, position + 1)
  else if ['<'].isPrefixOf rest then return (.less, position + 1)
  else return (.equals, position)

/-- Reads the value of a field, plain or quoted, and says whether it was quoted. -/
def value (name : String) (position : Nat) : Except Stop ((String × Bool) × Nat) := do
  if (← peek input position) == some '"' then
    let (value, stop) ← quoted input position
    return ((value, true), stop)
  else
    let (value, stop) ← word input ['"'] position
    if value.isEmpty then fail input position (.missingValue name)
    else return ((String.ofList value, false), stop)

/-- Reads the name after a word that asks for presence. -/
def presence (keyword : String) (position : Nat) : Except Stop (Expr × Nat) := do
  let (name, stop) ← word input ['"', ':'] position
  if name.isEmpty then fail input position (.missingName keyword)
  else return (.exists (Text.lower (String.ofList name)) (keyword == "missing"), stop)

/-- Reads what follows the colon after a word that starts at a byte. -/
def field (name : List Char) (start position : Nat) : Except Stop (Expr × Nat) := do
  let lowered := Text.lower (String.ofList name)
  if (← peek input position) == some ':' then fail input position .doubledColon
  else if presenceWords.contains lowered then presence input lowered position
  else if !fieldNames.contains lowered then
    fail input start (.unknownField (String.ofList name) (closestName lowered))
  else
    let (comparison, valueStart) ← comparison input position
    let ((value, quoted), stop) ← value input lowered valueStart
    match fieldExpr lowered comparison value quoted [] with
    | .ok expression => return (expression, stop)
    | .error failure => fail input valueStart failure.fault

/-- Reads an expression without a dash. -/
def atom (position : Nat) : Except Stop (Expr × Nat) := do
  if (← peek input position) == some '"' then
    let (value, stop) ← quoted input position
    return (.term value, stop)
  else
    let (name, stop) ← word input ['"', ':'] position
    if (← peek input stop) == some ':' then
      if name.isEmpty then fail input position .nothingBeforeColon
      else field input name position (← bump input stop)
    else return (bareWord (String.ofList name), stop)

/-- Reads one expression, which a dash in front negates. -/
def expression (position : Nat) : Except Stop (Expr × Nat) := do
  if (← peek input position) == some '-' then
    let inside ← bump input position
    if (← peek input inside).all Text.isBlank then fail input position .nothingAfterDash
    else
      let (expression, stop) ← atom input inside
      return (.not expression, stop)
  else atom input position

/-- Whether a chain ends at a byte: at the end of the text, or at the keyword. -/
def endsChain (position : Nat) : Except Stop Bool := do
  if isAtEnd input position then return true
  else isAtKeyword input position

/-- Reads expressions that stand side by side. -/
def chain : Nat -> List Expr -> Nat -> Except Stop (List Expr × Nat)
  | 0, _, _ => .error .endless
  | budget + 1, expressions, position => do
      let start ← skipBlanks input position
      if ← endsChain input start then return (expressions, start)
      else
        let (expression, stop) ← expression input start
        chain budget (expressions ++ [expression]) stop

/-- Reads the chains after the first. -/
def chains : Nat -> Joined -> Nat -> Except Stop (List Expr × Nat)
  | 0, _, _ => .error .endless
  | budget + 1, joined, position => do
      let keyword ← skipBlanks input position
      if isAtEnd input keyword then return (joined.exprs, keyword)
      else
        let start ← skipBlanks input (← skipTwo input keyword)
        if ← endsChain input start then fail input keyword .nothingAfterOr
        else
          let (expressions, stop) ← chain input (budgetOf input) [] start
          chains budget (joined.add expressions) stop

/-- Reads a query text; returns where the reader has come to. -/
def query : Except Stop (Query × Nat) := do
  let start ← skipBlanks input 0
  if isAtEnd input start then return (⟨[], input⟩, start)
  else if ← isAtKeyword input start then fail input start .nothingBeforeOr
  else
    let (first, stop) ← chain input (budgetOf input) [] start
    let (expressions, last) ← chains input (budgetOf input) ⟨first, none⟩ stop
    return (⟨expressions, input⟩, last)

end Reading

end Cursor

end QueryLanguage
end Commonplace
