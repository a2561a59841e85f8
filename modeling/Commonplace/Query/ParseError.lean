import Commonplace.Text.Bytes

namespace Commonplace

/-!
# Errors in a query text

A parse error says what is wrong and at which place.  The place is found from the text before it:
its offset counts bytes, its line counts line feeds, and its column counts characters.
-/

/-- What is wrong with a query text. -/
inductive ParseFault where
  | nothingBeforeOr
  | nothingAfterOr
  | nothingAfterDash
  | nothingBeforeColon
  | doubledColon
  | unknownField (name : String) (closest : Option String)
  | missingValue (field : String)
  | openRange
  | missingName (keyword : String)
  | openQuote
  deriving DecidableEq, Inhabited

namespace ParseFault

def message : ParseFault -> String
  | nothingBeforeOr => "expected a search term before OR"
  | nothingAfterOr => "expected a search term after OR"
  | nothingAfterDash => "expected a term after '-'"
  | nothingBeforeColon => "expected a field name before ':'"
  | doubledColon => "unexpected ':'"
  | unknownField name _ => "unknown field \"" ++ name ++ "\""
  | missingValue field => "expected a value after '" ++ field ++ ":'"
  | openRange => "expected a date on both sides of '..'"
  | missingName keyword => "expected a field name after '" ++ keyword ++ ":'"
  | openQuote => "unterminated quoted string"

/-- What to write instead, where something can be suggested. -/
def suggestion : ParseFault -> Option String
  | nothingBeforeOr | nothingAfterOr => some "put a term on both sides of OR, e.g. work OR home"
  | nothingAfterDash => some "attach the term to the dash, e.g. -archived"
  | nothingBeforeColon => some "tag:work"
  | doubledColon => some "use single colon for field:value"
  | unknownField _ closest => closest
  | missingValue _ => some "add a value after the colon (e.g., tag:work)"
  | openRange => some "created:2024-01-01..2024-06-30"
  | missingName keyword => some (keyword ++ ":status")
  | openQuote => some "close the quoted string"

end ParseFault

/-- A place in a text: the number of bytes before it, and its line and column, both from one. -/
structure Place where
  offset : Nat
  line : Nat
  column : Nat
  deriving DecidableEq, Inhabited

namespace Place

def after (characters : List Char) : Place where
  offset := Text.byteSize characters
  line := characters.count '\n' + 1
  column := (characters.reverse.takeWhile fun character => character != '\n').length + 1

end Place

/-- A query text that could not be read. -/
structure ParseError where
  fault : ParseFault
  place : Place
  input : String
  deriving DecidableEq, Inhabited

namespace ParseError

/-- What is wrong and what to write instead. -/
def message (error : ParseError) : String :=
  match error.fault.suggestion with
  | some suggestion => error.fault.message ++ ". Did you mean: " ++ suggestion ++ "?"
  | none => error.fault.message

end ParseError

end Commonplace
