namespace Commonplace

/-!
# Spelling suggestions

The distance of two words is the least number of letters to insert, delete or replace.  It is
computed row by row: a row holds the distances of what was read of one word to every beginning of
the other, and only the previous row is kept.
-/

namespace Spelling

/-- What is left to write of a row from an entry on, for one more letter.  Of the previous row the
entries above and to the right are read. -/
def nextRow (letter : Char) (entry : Nat) : List Nat -> List Char -> List Nat
  | above :: right :: previous, head :: tail =>
      let replaced := above + if letter == head then 0 else 1
      entry :: nextRow letter (min (min replaced (right + 1)) (entry + 1)) (right :: previous) tail
  | _, _ => [entry]

/-- The last row for a word. -/
def lastRow (word other : List Char) : List Nat :=
  word.zipIdx.foldl (fun row (letter, index) => nextRow letter (index + 1) row other)
    (List.range (other.length + 1))

/-- The least number of letters to insert, delete or replace that turns one word into another. -/
def distance (word other : List Char) : Nat :=
  (lastRow word other).getD other.length 0

/-- The first of the candidates that is nearest to a word, if it is at most `limit` away. -/
def closest (limit : Nat) (word : String) (candidates : List String) : Option String :=
  let measured := candidates.map fun candidate =>
    (distance word.toList candidate.toList, candidate)
  let near := measured.filter fun candidate => candidate.1 ≤ limit
  let best := near.foldl (fun (best : Option (Nat × String)) candidate =>
    match best with
    | some found => if candidate.1 < found.1 then some candidate else some found
    | none => some candidate) none
  best.map Prod.snd

end Spelling

end Commonplace
