import Commonplace.Note.Basic
import Commonplace.Search.Fault
import Commonplace.Text.Blank
import Commonplace.Text.LowerCase

namespace Commonplace

/-!
# Fusing two ranked lists

A note at rank `r` of a list counts `1 / (k + r)`.  Its fused score is the sum over both lists,
and notes are told apart by their trimmed path in lower case.  Of two notes with equal scores the
one that occurs in both lists comes first, and then the one with the smaller path.

The scores are taken in any arithmetic, so that what holds of the order does not hang on rounding.
The constant and a rank are added as machine words, and a sum that is too large for a word stops the
program.
-/

/-- Which lists a fused result came from. -/
inductive MatchType where
  | exact
  | semantic
  | hybrid
  deriving DecidableEq, Inhabited

namespace MatchType

/-- The name of a match type in machine-readable output. -/
def name : MatchType -> String
  | exact => "exact"
  | semantic => "semantic"
  | hybrid => "hybrid"

def label : MatchType -> String
  | exact => "Exact match"
  | semantic => "Semantic match"
  | hybrid => "Hybrid"

def all : List MatchType :=
  [exact, semantic, hybrid]

end MatchType

/-- A note with its score in a list. -/
structure Scored where
  note : Note
  score : Float32
  deriving Inhabited

/-- What fusion needs of scores. -/
structure ScoreArithmetic (score : Type) where
  zero : score
  add : score -> score -> score
  /-- One divided by a whole number. -/
  reciprocal : Nat -> score
  order : score -> score -> Ordering

/-- The arithmetic of doubles. -/
def doubleArithmetic : ScoreArithmetic Float where
  zero := 0.0
  add first second := first + second
  reciprocal count := 1.0 / (UInt64.ofNat count).toFloat
  order first second :=
    if first < second then .lt else if second < first then .gt else .eq

/-- A fused result: a note, its score, and its rank and score in the lists that it is in. -/
structure Fused (score : Type) where
  note : Note
  score : score
  keyword : Option (Nat × Float32)
  semantic : Option (Nat × Float32)

namespace Fused

variable {score : Type}

/-- The lists that a result came from. -/
def matchType (result : Fused score) : MatchType :=
  match result.keyword, result.semantic with
  | some _, some _ => .hybrid
  | some _, none => .exact
  | none, _ => .semantic

/-- The number of lists that a result came from. -/
def coverage (result : Fused score) : Nat :=
  result.keyword.toList.length + result.semantic.toList.length

end Fused

namespace Fusion

variable {score : Type}

/-- The smoothing constant that stands for zero. -/
def defaultSmoothing : Nat :=
  60

def smoothing (constant : Nat) : Nat :=
  if constant == 0 then defaultSmoothing else constant

/-- The number that the sum of a constant and a rank stays below. -/
def sumLimit : Nat :=
  Nat.pow 2 64

/-- The path by which a note is told apart from others. -/
def key (note : Note) : String :=
  Text.lower (Text.trim note.path)

/-- Which of the two lists is being read. -/
inductive Source where
  | keyword
  | semantic
  deriving DecidableEq

/-- A result that has a place in a list.  Only the first place counts for rank and score. -/
def place (source : Source) (rank : Nat) (value : Float32) (result : Fused score) :
    Fused score :=
  match source with
  | .keyword => { result with keyword := result.keyword.or (some (rank, value)) }
  | .semantic => { result with semantic := result.semantic.or (some (rank, value)) }

/-- Changes the result of a key, which is made first if there is none. -/
def upsert (key : String) (fresh : Fused score) (change : Fused score -> Fused score) :
    List (String × Fused score) -> List (String × Fused score)
  | [] => [(key, change fresh)]
  | head :: tail =>
      if head.1 == key then (head.1, change head.2) :: tail
      else head :: upsert key fresh change tail

/-- Adds a list to the results, from a rank on. -/
def addFrom (arithmetic : ScoreArithmetic score) (constant : Nat) (source : Source) (rank : Nat)
    (results : List (String × Fused score)) : List Scored -> List (String × Fused score)
  | [] => results
  | entry :: rest =>
      let gain := arithmetic.reciprocal (constant + rank)
      let change := fun (result : Fused score) =>
        let placed := place source rank entry.score result
        { placed with score := arithmetic.add placed.score gain }
      let fresh : Fused score := ⟨entry.note, arithmetic.zero, none, none⟩
      addFrom arithmetic constant source (rank + 1)
        (upsert (key entry.note) fresh change results) rest

def order (arithmetic : ScoreArithmetic score) (first second : String × Fused score) : Ordering :=
  (arithmetic.order second.2.score first.2.score).then
    ((compare second.2.coverage first.2.coverage).then (compare first.1 second.1))

/-- Fuses a keyword list and a semantic list, best first. -/
def merge (arithmetic : ScoreArithmetic score) (constant : Nat) (keyword semantic : List Scored) :
    List (Fused score) :=
  let constant := smoothing constant
  let fromKeyword := addFrom arithmetic constant .keyword 1 [] keyword
  let all := addFrom arithmetic constant .semantic 1 fromKeyword semantic
  (all.mergeSort fun first second => (order arithmetic first second).isLE).map Prod.snd

/-- Whether the constant can be added to every rank of two lists. -/
def fits (constant : Nat) (keyword semantic : List Scored) : Bool :=
  smoothing constant + max keyword.length semantic.length < sumLimit

/-- Fuses two lists, unless the constant is too large for their ranks. -/
def fuse (arithmetic : ScoreArithmetic score) (constant : Nat) (keyword semantic : List Scored) :
    Except Fault (List (Fused score)) :=
  if fits constant keyword semantic then .ok (merge arithmetic constant keyword semantic)
  else .error .overflow

end Fusion

end Commonplace
