import Commonplace.Note.Reader
import Commonplace.Notebook.Checksum
import Commonplace.Notebook.Walk
import Commonplace.Text.Utf8

namespace Commonplace
namespace Notebook

/-!
# Loading a notebook

Every note file becomes a note, in the order of the walk.
-/

def noteAt (tree : FileTree) (now : Time.Instant) (file : NoteFile) : Option Note :=
  match tree.at? file.place with
  | some (.file bytes changed) =>
      some { Note.read file.key (Text.decode bytes) (some changed) now with
        checksum := Checksum.ofBytes bytes }
  | _ => none

/-- All notes below a directory. -/
def load (tree : FileTree) (start : List String) (root : String) (now : Time.Instant)
    (cancelled : Bool) : Except Fault (List Note) :=
  (discover tree start root cancelled).map fun files => files.filterMap (noteAt tree now)

end Notebook
end Commonplace
