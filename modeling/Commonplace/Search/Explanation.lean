import Commonplace.Note.Basic
import Commonplace.Search.Fusion
import Commonplace.Text.Paragraph

namespace Commonplace
namespace Explanation

/-!
# Explaining a hit

One line that says why a note was returned.  It shows the first place of the body where the query
occurs, or, failing that, the first of its words that occurs, between brackets and with some text
around it.  A hit by similarity, or one whose words are elsewhere, shows the first paragraph.
-/

/-- What is shown for a note without text. -/
def nothing : String :=
  "No snippet available"

/-- The number of characters kept on each side of a match. -/
def context : Nat :=
  60

/-- The greatest length of a line that shows a match. -/
def matchLimit : Nat :=
  180

/-- The greatest length of a line that shows a paragraph. -/
def leadLimit : Nat :=
  160

/-- Whether two characters are the same up to case. -/
def sameLetter (first second : Char) : Bool :=
  Text.lowerFull first == Text.lowerFull second

/-- Whether a text begins with a word, up to case. -/
def beginsWith : List Char -> List Char -> Bool
  | [], _ => true
  | _ :: _, [] => false
  | letter :: word, head :: tail => sameLetter head letter && beginsWith word tail

/-- The number of characters before the first occurrence of a word, up to case. -/
def findWord (word : List Char) : List Char -> Option Nat
  | [] => none
  | head :: tail =>
      if beginsWith word (head :: tail) then some 0
      else (findWord word tail).map fun position => position + 1

/-- The first of some words that occurs: where, and how long it is. -/
def firstFound (body : List Char) (candidates : List (List Char)) : Option (Nat × Nat) :=
  (candidates.filter fun word => !word.isEmpty).findSome? fun word =>
    (findWord word body).map fun position => (position, word.length)

/-- The text around a match, which stands between brackets.  Dots show where the body goes on. -/
def bracketed (body : List Char) (position length : Nat) : List Char :=
  let dots := ['.', '.', '.']
  let start := position - context
  let stop := min (position + length + context) body.length
  (if 0 < start then dots else []) ++ (body.take position).drop start ++ '[' ::
    (body.drop position).take length ++ ']' ::
    (body.take stop).drop (position + length) ++ (if stop < body.length then dots else [])

/-- The line that shows the match of a query in a body. -/
def highlight (body query : List Char) : Option (List Char) :=
  let query := Text.trimChars query
  (firstFound body (query :: Text.words query)).map fun found =>
    Text.truncateChars matchLimit (Text.collapseChars (bracketed body found.1 found.2))

/-- The line that shows the first paragraph of a note. -/
def leadLine (note : Note) : List Char :=
  let lead :=
    if Text.isBlankText note.lead then Text.firstParagraphChars note.body.toList
    else note.lead.toList
  Text.truncateChars leadLimit (Text.collapseChars lead)

/-- Why a note was returned for a query. -/
def explain (note : Note) (query : String) (matchType : MatchType) : String :=
  if Text.isBlankText note.body then nothing
  else
    let shown :=
      if matchType == .semantic then none else highlight note.body.toList query.toList
    String.ofList (shown.getD (leadLine note))

end Explanation
end Commonplace
