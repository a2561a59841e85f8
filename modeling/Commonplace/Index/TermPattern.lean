import Commonplace.Text.Ends

namespace Commonplace
namespace Index

/-!
# Patterns for terms

A pattern is matched against a whole term.  What stands for any characters never stands for a line
feed.  A pattern also has a written form, a regular expression, which appears in messages.
-/

inductive Piece where
  /-- One given character. -/
  | literal (character : Char)
  /-- Any one character. -/
  | anyOne
  /-- Any characters. -/
  | anyRun
  deriving DecidableEq, Inhabited

namespace Piece

/-- Whether a character may stand where any character may. -/
def isFree (character : Char) : Bool :=
  character != '\n'

/-- The rests of a text after a beginning that a piece matches. -/
def rests (text : List Char) : Piece -> List (List Char)
  | literal character => Text.endAfter (· == character) text
  | anyOne => Text.endAfter isFree text
  | anyRun => Text.endsWhile isFree text

/-- The characters that have a meaning of their own in a regular expression. -/
def special : List Char :=
  ['\\', '.', '+', '*', '?', '(', ')', '|', '[', ']', '\x7b', '\x7d', '^', '$', '#', '&', '-', '~']

def written : Piece -> List Char
  | literal character => if special.contains character then ['\\', character] else [character]
  | anyOne => ['.']
  | anyRun => ['.', '*']

end Piece

/-- A pattern for terms. -/
abbrev TermPattern := List Piece

namespace TermPattern

def ofText (text : String) : TermPattern :=
  text.toList.map .literal

def startingWith (text : String) : TermPattern :=
  ofText text ++ [.anyRun]

def endingWith (text : String) : TermPattern :=
  .anyRun :: ofText text

/-- The pattern in which stars stand for any characters and question marks for any one. -/
def ofWildcard (text : String) : TermPattern :=
  text.toList.map fun character =>
    if character == '*' then .anyRun else if character == '?' then .anyOne else .literal character

/-- The rests of some ends of a text after beginnings that a pattern matches. -/
def rests (texts : List (List Char)) : TermPattern -> List (List Char)
  | [] => texts
  | piece :: pieces => rests (Text.distinctEnds (texts.flatMap fun text => piece.rests text)) pieces

def accepts (pattern : TermPattern) (term : String) : Bool :=
  (rests [term.toList] pattern).any List.isEmpty

def written (pattern : TermPattern) : String :=
  String.ofList (pattern.flatMap Piece.written)

end TermPattern

end Index
end Commonplace
