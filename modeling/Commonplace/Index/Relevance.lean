import Commonplace.Index.Criterion

namespace Commonplace
namespace Index

/-!
# Relevance

How well a note fits a criterion.  A term counts the more the fewer notes have it, the more often
it occurs in the text, and the shorter the text is, by the formula that is known as BM25.  The
length of a text is rounded down to one of 256 lengths.  Patterns, dates and presence of everything
count one, and clauses count the sum of their parts.
-/

/-- How fast a repeated term stops to count. -/
def repetitionConstant : Float32 :=
  1.2

/-- How much the length of a text counts. -/
def lengthConstant : Float32 :=
  0.75

def countAsFloat (count : Nat) : Float32 :=
  (UInt64.ofNat count).toFloat32

/-- A length rounded down so that, above 24, it is a number with at most four significant binary
digits more than 24. -/
def roundedLength (length : Nat) : Nat :=
  if length < 24 then length
  else
    let above := length - 24
    let step := Nat.pow 2 (above.log2 - 3)
    24 + above / step * step

/-- How rare a term is that some of all notes have. -/
def rarity (having all : Nat) : Float32 :=
  let others := countAsFloat (all - having)
  (1.0 + (others + 0.5) / (countAsFloat having + 0.5)).log

/-- What counts for all matches of a term: its weight and the mean length of the texts. -/
structure TermWeight where
  weight : Float32
  meanLength : Float32

/-- The score of a term that occurs a number of times in a text of some length. -/
def TermWeight.score (term : TermWeight) (occurrences length : Nat) : Float32 :=
  let count := countAsFloat occurrences
  let share := lengthConstant * countAsFloat (roundedLength length) / term.meanLength
  term.weight * (count / (count + repetitionConstant * (1.0 - lengthConstant + share)))

def meanOf (lengths : List Nat) : Float32 :=
  countAsFloat (lengths.foldl Nat.add 0) / countAsFloat lengths.length

/-- The weight of a term, or of several terms in a row. -/
def TermWeight.ofRarity (rarity : Float32) (weight : Nat) (lengths : List Nat) : TermWeight :=
  let own := rarity * (1.0 + repetitionConstant)
  ⟨if weight == 1 then own else own * countAsFloat weight, meanOf lengths⟩

structure Scorer where
  score : Note -> Float32

namespace Scorer

/-- Scores all notes alike. -/
def constant (value : Float32) : Scorer :=
  ⟨fun _ => value⟩

def stemCount (slot : TextSlot) (note : Note) : Nat :=
  (stems (slot.text note)).length

def havingStem (notes : List Note) (slot : TextSlot) (stem : String) : Nat :=
  (notes.filter fun note => (stems (slot.text note)).contains stem).length

/-- Scores stems that follow each other in a text. -/
def ofPhrase (notes : List Note) (slot : TextSlot) (found : List String) (weight : Nat) : Scorer :=
  let rare := found.foldl (fun total stem =>
    total + rarity (havingStem notes slot stem) notes.length) 0.0
  let term := TermWeight.ofRarity rare weight (notes.map (stemCount slot))
  ⟨fun note =>
    let places := stemPlaces (slot.text note)
    term.score (phraseStarts found places).length (stemCount slot note)⟩

/-- Scores an exact term.  It counts once, however often a note has it. -/
def ofTerm (notes : List Note) (slot : ValueSlot) (value : String) : Scorer :=
  let having := (notes.filter fun note => (slot.terms note).contains value).length
  let lengths := notes.map fun note => (slot.terms note).length
  let term := TermWeight.ofRarity (rarity having notes.length) 1 lengths
  ⟨fun note => term.score 1 (slot.terms note).length⟩

end Scorer

mutual

/-- The score that notes have in an index with the given notes.  It is meant for notes that the
criterion selects. -/
def Criterion.scorer (notes : List Note) : Criterion -> Scorer
  | .everything => .constant 1.0
  | .nothing => .constant 0.0
  | .phrase slot found weight => .ofPhrase notes slot found weight
  | .term slot value => .ofTerm notes slot value
  | .pattern .. => .constant 1.0
  | .dated .. => .constant 1.0
  | .clauses required optional _ =>
      let scorers := Criterion.scorers notes required ++ Criterion.scorers notes optional
      ⟨fun note => scorers.foldl (fun total entry =>
        if entry.1.selects note then total + entry.2.score note else total) 0.0⟩

def Criterion.scorers (notes : List Note) : List Criterion -> List (Criterion × Scorer)
  | [] => []
  | criterion :: rest => (criterion, criterion.scorer notes) :: Criterion.scorers notes rest

end

end Index
end Commonplace
