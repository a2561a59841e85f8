import Commonplace.Text.Blank

namespace Commonplace
namespace Text

/-!
# Paragraphs and lines

Paragraphs are separated by two line feeds in a row, lines by one.  Neither separator takes a
carriage return into account; a line drops the one before its line feed.
-/

/-- Cuts a text at every occurrence, from left to right, of two line feeds in a row.  `current`
holds the paragraph read so far, last character first. -/
def paragraphsFrom (current : List Char) : List Char -> List (List Char)
  | [] => [current.reverse]
  | '\n' :: '\n' :: rest => current.reverse :: paragraphsFrom [] rest
  | character :: rest => paragraphsFrom (character :: current) rest

def paragraphs (characters : List Char) : List (List Char) :=
  paragraphsFrom [] characters

/-- The first paragraph that is neither blank nor a heading, without the blanks at its ends. -/
def firstParagraphChars (characters : List Char) : List Char :=
  let candidates := (paragraphs characters).map trimChars
  (candidates.find? fun paragraph => !paragraph.isEmpty && paragraph.head? != some '#').getD []

/-- The first paragraph of a text that is neither blank nor a heading, or nothing. -/
def firstParagraph (text : String) : String :=
  String.ofList (firstParagraphChars text.toList)

/-- The lines of a text, each with the line feed that ends it. -/
def linesKept : List Char -> List (List Char)
  | [] => []
  | '\n' :: rest => ['\n'] :: linesKept rest
  | character :: rest =>
      match linesKept rest with
      | [] => [[character]]
      | line :: lines => (character :: line) :: lines

/-- A line without its end: one line feed, and one carriage return before it. -/
def withoutLineEnd (line : List Char) : List Char :=
  match line.reverse with
  | '\n' :: '\r' :: kept => kept.reverse
  | '\n' :: kept => kept.reverse
  | _ => line

def lines (characters : List Char) : List (List Char) :=
  (linesKept characters).map withoutLineEnd

end Text
end Commonplace
