import Commonplace.Text.Bytes
import Commonplace.Text.Paragraph
import Commonplace.Yaml.Value

namespace Commonplace
namespace Frontmatter

/-!
# Frontmatter

A note may begin with a header between two marker lines.  The first marker is the first line and
is exact; the closing one may be followed by blanks and may also be three dots.  A header that is
not one mapping counts as empty, and so does one that cannot be read.
-/

/-- What follows the opening marker, if a text begins with one. -/
def afterOpening : List Char -> Option (List Char)
  | '-' :: '-' :: '-' :: '\n' :: rest => some rest
  | '-' :: '-' :: '-' :: '\r' :: '\n' :: rest => some rest
  | _ => none

def isClosing (line : List Char) : Bool :=
  let line := Text.dropEndWhile Text.isBlank line
  line == ['-', '-', '-'] || line == ['.', '.', '.']

/-- Where the first of some lines that closes a header begins and ends, when the lines begin at some
byte. -/
def closing? : Nat -> List (List Char) -> Option (Nat × Nat)
  | _, [] => none
  | offset, line :: lines =>
      if isClosing line then some (offset, offset + Text.byteSize line)
      else closing? (offset + Text.byteSize line) lines

/-- The header and the body of what follows an opening marker: the text up to the byte where the
closing line begins, and the text from the byte where it ends.  A cut inside a character would give
nothing. -/
def cut? (rest : List Char) : Option (List Char × List Char) := do
  let (start, stop) ← closing? 0 (Text.linesKept rest)
  let (header, _) ← Text.splitAtByte? start rest
  let (_, body) ← Text.splitAtByte? stop rest
  return (header, body)

/-- The header of a text, if it has one, and its body. -/
def split (content : List Char) : Option (List Char) × List Char :=
  match afterOpening content with
  | none => (none, content)
  | some rest =>
      match cut? rest with
      | some (header, body) => (some header, body)
      | none => (none, content)

def entries (header : List Char) : List (Yaml.Value × Yaml.Value) :=
  if header.all Text.isBlank then []
  else
    match Yaml.read? (String.ofList header) with
    | some (.mapping entries) => entries
    | _ => []

/-- The value of an entry whose key is exactly a given text, unless it is null. -/
def get? (entries : List (Yaml.Value × Yaml.Value)) (key : String) : Option Yaml.Value :=
  let found := entries.find? fun entry => entry.1.same (.text key)
  (found.map Prod.snd).filter fun value => !value.isNull

/-- The text of a single value under a key. -/
def text? (entries : List (Yaml.Value × Yaml.Value)) (key : String) : Option String :=
  (get? entries key).bind Yaml.Value.scalarText?

end Frontmatter
end Commonplace
