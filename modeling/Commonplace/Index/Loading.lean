import Commonplace.Index.Stored
import Commonplace.Json.Nesting
import Commonplace.Search.Fault

namespace Commonplace
namespace Index

/-!
# Loading notes

The metadata of a note lies in an index as text.  The reader of that text goes only so deep into
lists and objects, so a note with deeper metadata is kept and found, but cannot be loaded.
-/

/-- The number of lists and objects within each other that stored metadata may have, the metadata
itself included. -/
def nestingLimit : Nat :=
  127

/-- Why a stored note cannot be loaded. -/
def loadFault? (note : Note) : Option Fault :=
  ((Json.object note.metadata).bytesBeforeDeep? nestingLimit).map fun bytes =>
    .json ("recursion limit exceeded at line 1 column " ++ toString (bytes + 1))

/-- A stored note as it is read back, if it can be loaded. -/
def loaded (note : Note) : Except Fault Note :=
  match loadFault? note with
  | some fault => .error fault
  | none => .ok (stored note)

end Index
end Commonplace
