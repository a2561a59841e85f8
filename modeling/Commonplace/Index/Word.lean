import Commonplace.Text.Alphanumeric
import Commonplace.Text.Blank
import Commonplace.Text.Bytes
import Commonplace.Text.Ends
import Commonplace.Text.LowerCase
import Commonplace.Text.Stem

namespace Commonplace
namespace Index

/-!
# Words of a text

A text is indexed by its words, the maximal runs of letters and digits.  Words are compared in lower
case, and mostly by their stem.  Long words are not indexed, but they keep their place, so that
their neighbours do not become neighbours of each other.
-/

/-- The number of bytes from which on a word is too long to be indexed. -/
def longWordSize : Nat :=
  40

def isLong (word : List Char) : Bool :=
  longWordSize ≤ Text.byteSize word

/-- The stem of a word, which is put into lower case first, character by character. -/
def stemOf (word : List Char) : List Char :=
  Text.stem (Text.lowerEach word)

def writtenWords (text : String) : List (List Char) :=
  Text.runs Text.isAlphanumeric text.toList

/-- The words of a text in some form, each in its place; a long word leaves its place empty. -/
def placed (form : List Char -> List Char) (text : String) : List (Option String) :=
  (writtenWords text).map fun word =>
    if isLong word then none else some (String.ofList (form word))

/-- The stems in a text, each in its place. -/
def stemPlaces (text : String) : List (Option String) :=
  placed stemOf text

def stems (text : String) : List String :=
  (stemPlaces text).filterMap id

/-- The words in a text, without regard to their stems. -/
def plainWords (text : String) : List String :=
  (placed Text.lowerEach text).filterMap id

/-- The ends of a list of places that start with some stems in a row. -/
def phraseStarts (stems : List String) (places : List (Option String)) :
    List (List (Option String)) :=
  (Text.ends places).filter fun rest => (stems.map some).isPrefixOf rest

/-- Whether some stems occur in a row. -/
def occursAsPhrase (stems : List String) (places : List (Option String)) : Bool :=
  !(phraseStarts stems places).isEmpty

end Index
end Commonplace
