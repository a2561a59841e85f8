import Commonplace.Index.Relevance

namespace Commonplace
namespace Index

/-!
# Excerpts

A hit shows a part of the body of the note around the words that were looked for.  The body is cut
into fragments of at most 160 bytes that begin and end with a word, and the one with the rarest
words is shown, the first of several.  Places in a text are counted in bytes.
-/

def fragmentSize : Nat :=
  160

/-- A word of a text and the bytes that it takes. -/
structure Span where
  start : Nat
  stop : Nat
  word : List Char

/-- A part of a text, its score, and the bytes that its words found take. -/
structure Fragment where
  start : Nat
  stop : Nat
  score : Float32
  found : List (Nat × Nat)

/-- A part of a body with the places of the words found, counted from its start. -/
structure Excerpt where
  text : String
  ranges : List (Nat × Nat)
  deriving DecidableEq, Inhabited

namespace Span

/-- The word that ends at a byte, if any; its letters are given last first. -/
def closing (stop : Nat) (word : List Char) : List Span :=
  if word.isEmpty then [] else [⟨stop - Text.byteSize word, stop, word.reverse⟩]

/-- The words of a text from a byte on; `word` holds the letters read of a word, last first. -/
def ofText (offset : Nat) (word : List Char) : List Char -> List Span
  | [] => closing offset word
  | character :: rest =>
      let next := offset + character.utf8Size
      if Text.isAlphanumeric character then ofText next (character :: word) rest
      else closing offset word ++ ofText next [] rest

end Span

/-- The stems that a criterion looks for in bodies, wherever they stand in it. -/
def Criterion.bodyStems : Criterion -> List String
  | .phrase .body found _ => found
  | .clauses required optional excluded =>
      listed required ++ listed optional ++ listed excluded
  | _ => []
where
  /-- The stems that some criteria look for. -/
  listed : List Criterion -> List String
    | [] => []
    | criterion :: rest => criterion.bodyStems ++ listed rest

/-- The stems to be shown, with their scores: a stem counts the more the fewer notes have it. -/
def stemScores (notes : List Note) (criterion : Criterion) : List (String × Float32) :=
  criterion.bodyStems.eraseDups.filterMap fun stem =>
    let having := Scorer.havingStem notes .body stem
    if having == 0 then none else some (stem, 1.0 / (1.0 + countAsFloat having))

namespace Fragment

/-- The empty fragment at a place. -/
def fromByte (start : Nat) : Fragment :=
  ⟨start, start, 0.0, []⟩

/-- A fragment that goes on to the end of a word. -/
def extend (scores : List (String × Float32)) (fragment : Fragment) (span : Span) : Fragment :=
  match findEntry (String.ofList (stemOf span.word)) scores with
  | none => { fragment with stop := span.stop }
  | some score =>
      ⟨fragment.start, span.stop, fragment.score + score,
        fragment.found ++ [(span.start, span.stop)]⟩

/-- Cuts the words of a text into fragments, of which those without any word found are left out. -/
def cut (scores : List (String × Float32)) (current : Fragment) : List Span -> List Fragment
  | [] => if 0.0 < current.score then [current] else []
  | span :: rest =>
      if fragmentSize < span.stop - current.start then
        let finished := if 0.0 < current.score then [current] else []
        finished ++ cut scores (extend scores (.fromByte span.start) span) rest
      else cut scores (extend scores current span) rest

/-- The fragment with the highest score, the first of several. -/
def best : List Fragment -> Option Fragment
  | [] => none
  | first :: rest =>
      some (rest.foldl (fun best next => if best.score < next.score then next else best) first)

end Fragment

/-- The characters of a text that lie between two bytes. -/
def charactersBetween (start stop offset : Nat) : List Char -> List Char
  | [] => []
  | character :: rest =>
      let others := charactersBetween start stop (offset + character.utf8Size) rest
      if start ≤ offset && offset < stop then character :: others else others

/-- The excerpt of a body that shows the words found, if there are any. -/
def Excerpt.ofBody (scores : List (String × Float32)) (body : String) : Option Excerpt :=
  let spans := (Span.ofText 0 [] body.toList).filter fun span => !isLong span.word
  (Fragment.best (Fragment.cut scores (.fromByte 0) spans)).map fun fragment =>
    ⟨String.ofList (charactersBetween fragment.start fragment.stop 0 body.toList),
      fragment.found.map fun range => (range.1 - fragment.start, range.2 - fragment.start)⟩

end Index
end Commonplace
