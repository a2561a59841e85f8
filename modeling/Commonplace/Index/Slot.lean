import Commonplace.Index.Stored
import Commonplace.Index.Word

namespace Commonplace
namespace Index

/-!
# What notes are found by

An index finds notes by terms, each of which stands in a slot.  Some slots hold words, others hold
whole values.  A very long value is not indexed.
-/

/-- A text that is indexed by its words. -/
inductive TextSlot where
  | title
  | lead
  | body
  deriving DecidableEq, Inhabited

/-- Values that are indexed as they are. -/
inductive ValueSlot where
  | path
  | pathLower
  | tags
  | metadata
  | checksum
  | presence
  deriving DecidableEq, Inhabited

inductive DateSlot where
  | created
  | modified
  deriving DecidableEq, Inhabited

def TextSlot.text (note : Note) : TextSlot -> String
  | title => note.title
  | lead => note.lead
  | body => note.body

/-- The number of bytes up to which a value is indexed. -/
def largestValue : Nat :=
  65530

/-- The value by which a metadata entry is found. -/
def metadataTerm (key value : String) : String :=
  Text.lower (Text.trim key) ++ "=" ++ Text.lower (Text.trim value)

/-- The values by which the metadata of a note is found. -/
def metadataTerms (note : Note) : List String :=
  note.metadata.flatMap fun entry => entry.2.flatten.map (metadataTerm entry.1)

namespace ValueSlot

def values (note : Note) : ValueSlot -> List String
  | path => [note.path]
  | pathLower => [Text.lower note.path]
  | tags => note.tags.map Text.lower
  | metadata => metadataTerms note
  | checksum => [note.checksum]
  | presence => note.presentFields

def terms (note : Note) (slot : ValueSlot) : List String :=
  (slot.values note).filter fun value => value.utf8ByteSize ≤ largestValue

end ValueSlot

/-- The second at which a date of a note is held. -/
def DateSlot.second (note : Note) : DateSlot -> Option Int
  | created => note.created.map heldSecond
  | modified => note.modified.map heldSecond

/-- Whether a note is found by its exact path. -/
def hasPath (path : String) (note : Note) : Bool :=
  (ValueSlot.path.terms note).contains path

end Index
end Commonplace
