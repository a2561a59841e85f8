import Commonplace.Index.Excerpt
import Commonplace.Index.Loading
import Commonplace.Index.Meaning
import Commonplace.Index.Writer

namespace Commonplace
namespace Index

/-!
# Results of a search

The notes that are selected are ordered as asked, and one part of them is returned with the number
of them all.  By relevance the best note comes first, and notes that fit equally well keep the order
of the index.  In all other orders such notes follow each other by their paths, whatever the
direction.

A search fails when its options have no criterion, or when a note that it loads is nested too deep.
In the order of relevance only the notes that are returned are loaded, in all other orders every
note that was selected.  Counting loads nothing.
-/

structure Hit where
  note : Note
  score : Float32
  excerpt : Option Excerpt
  deriving Inhabited

/-- The hits that are returned, and the number of all notes that were selected. -/
structure Results where
  hits : List Hit
  total : Nat
  deriving Inhabited

def scoreOrder (first second : Float32) : Ordering :=
  if first < second then .lt else if second < first then .gt else .eq

/-- The order of two dates; a missing one comes before all others. -/
def dateOrder : Option Time.Instant -> Option Time.Instant -> Ordering
  | none, none => .eq
  | none, some _ => .lt
  | some _, none => .gt
  | some first, some second => first.order second

def keyOrder (field : SortField) (first second : Float32 × Note) : Ordering :=
  match field with
  | .relevance => scoreOrder first.1 second.1
  | .created => dateOrder first.2.created second.2.created
  | .modified => dateOrder first.2.modified second.2.modified
  | .title => compare (Text.lower first.2.title) (Text.lower second.2.title)
  | .path => compare first.2.path second.2.path

/-- The order in which two notes are listed, unless the best come first. -/
def listingOrder (field : SortField) (direction : SortDirection)
    (first second : Float32 × Note) : Ordering :=
  let primary :=
    match direction with
    | .ascending => keyOrder field first second
    | .descending => (keyOrder field first second).swap
  primary.then (compare first.2.path second.2.path)

/-- Whether a note is listed no later than another that comes after it in the index. -/
def listedFirst (field : SortField) (direction : SortDirection)
    (first second : Float32 × Note) : Bool :=
  match field, direction with
  | .relevance, .descending => (scoreOrder second.1 first.1).isLE
  | field, direction => (listingOrder field direction first second).isLE

def selected (notes : List Note) (criterion : Criterion) : List Note :=
  notes.filter fun note => criterion.selects note

/-- The notes that a criterion selects, as they are read back, with their scores. -/
def scored (contents : Contents) (criterion : Criterion) : List (Float32 × Note) :=
  let scorer := criterion.scorer contents.counted
  (selected contents.notes criterion).map fun note => (scorer.score note, stored note)

/-- The notes that a criterion selects, in the order asked for. -/
def ranked (contents : Contents) (criterion : Criterion) (field : SortField)
    (direction : SortDirection) : List (Float32 × Note) :=
  (scored contents criterion).mergeSort (listedFirst field direction)

/-- The notes that a criterion selects, the best ones first. -/
def bestFirst (contents : Contents) (criterion : Criterion) : List Note :=
  let scorer := criterion.scorer contents.counted
  let entries := (selected contents.notes criterion).map fun note => (scorer.score note, note)
  (entries.mergeSort (listedFirst .relevance .descending)).map Prod.snd

/-- The notes that a search loads, one after another. -/
def notesToLoad (contents : Contents) (criterion : Criterion) (options : SearchOptions) :
    List Note :=
  let best := bestFirst contents criterion
  match options.sortField, options.sortDirection with
  | .relevance, .descending => (best.drop options.offset).take options.effectiveLimit
  | _, _ => best

/-- What a search returns, when all that it loads can be loaded. -/
def resultsOf (contents : Contents) (criterion : Criterion) (options : SearchOptions) : Results :=
  let all := ranked contents criterion options.sortField options.sortDirection
  let scores := stemScores contents.counted criterion
  let page := (all.drop options.offset).take options.effectiveLimit
  ⟨page.map fun entry => ⟨entry.2, entry.1, Excerpt.ofBody scores entry.2.body⟩, all.length⟩

section Engine

variable [PatternEngine]

/-- Searches an index. -/
def find (contents : Contents) (now : Time.Instant) (options : SearchOptions) :
    Except Fault Results := do
  let criterion <- (optionsCriterion now options).mapError (Fault.wrap "find" "")
  match (notesToLoad contents criterion options).findSome? loadFault? with
  | some fault => throw (fault.wrap "find" "")
  | none => return resultsOf contents criterion options

/-- The number of notes that a search selects. -/
def count (contents : Contents) (now : Time.Instant) (options : SearchOptions) :
    Except Fault Nat :=
  if options.isEmpty then .ok contents.notes.length
  else do
    let criterion <- optionsCriterion now options
    return (selected contents.notes criterion).length

end Engine

def get (contents : Contents) (path : String) : Except Fault Note :=
  match contents.notes.find? (hasPath path) with
  | some note => (loaded note).mapError (Fault.wrap "find_by_path" path)
  | none => .error (.notFound path)

end Index
end Commonplace
