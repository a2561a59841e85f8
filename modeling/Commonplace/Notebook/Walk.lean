import Commonplace.Notebook.FileTree
import Commonplace.Search.Fault

namespace Commonplace
namespace Notebook

/-!
# Walking a notebook

The notes of a notebook are the files below its directory whose ending says so.  What is hidden is
left out, links are followed, and no directory is entered twice, so links in a circle do no harm.
The notes are listed in the order of their paths, name by name.
-/

/-- A note file: its path below the notebook, and where it is. -/
structure NoteFile where
  path : List String
  place : List String
  deriving DecidableEq, Inhabited

def NoteFile.key (file : NoteFile) : String :=
  "/".intercalate file.path

/-- Whether a name is hidden. -/
def isHidden (name : String) : Bool :=
  name.toList.head? == some '.'

/-- The ending of a name: what follows its last dot.  A dot at the start begins no ending. -/
def ending (name : String) : Option String :=
  let reversed := name.toList.reverse
  match reversed.dropWhile fun character => character != '.' with
  | _ :: _ :: _ =>
      some (String.ofList (reversed.takeWhile fun character => character != '.').reverse)
  | _ => none

def noteEndings : List String :=
  ["md", "markdown"]

def isNoteName (name : String) : Bool :=
  (ending name).any fun ending =>
    noteEndings.contains (String.ofList (ending.toList.map Char.toLower))

/-- What a walk has found: the directories that were entered, and the notes. -/
structure Found where
  entered : List (List String)
  notes : List NoteFile

/-- Where an entry of a directory leads; nowhere for a broken link. -/
def placeOf (tree : FileTree) (directory : List String) (name : String) : Option (List String) :=
  match tree.resolve directory name with
  | .ok place => some place
  | .error _ => none

/-- Deals with one entry.  `enter` walks a directory that was not entered before. -/
def visit (tree : FileTree) (enter : List String -> List String -> Found -> Found)
    (directory path : List String) (found : Found) (name : String) : Found :=
  if isHidden name then found
  else
    match placeOf tree directory name with
    | none => found
    | some place =>
        match tree.at? place with
        | some (.directory _) =>
            if found.entered.contains place then found
            else enter place (path ++ [name]) { found with entered := place :: found.entered }
        | some (.file _ _) =>
            if place.getLast?.any isNoteName then
              { found with notes := ⟨path ++ [name], place⟩ :: found.notes }
            else found
        | _ => found

/-- Walks a directory.  The budget bounds how deep directories may be nested; a walk enters every
directory at most once, so their number is enough. -/
def walk (tree : FileTree) : Nat -> List String -> List String -> Found -> Found
  | 0, _, _, found => found
  | budget + 1, directory, path, found =>
      let names := (((tree.at? directory).map FileTree.entries).getD []).map Prod.fst
      names.foldl (visit tree (walk tree budget) directory path) found

/-- The failure that a path leads nowhere. -/
def pathFault (fault : PathFault) : Fault :=
  .io fault.message

/-- The notes below a directory. -/
def discover (tree : FileTree) (start : List String) (root : String) (cancelled : Bool) :
    Except Fault (List NoteFile) :=
  match tree.resolve start root with
  | .error fault => .error (pathFault fault)
  | .ok place =>
      if cancelled then .error .cancelled
      else if (tree.at? place).all fun found => !found.isDirectory then
        .error (pathFault .notDirectory)
      else
        let found := walk tree (tree.directoryCount + 1) place [] ⟨[place], []⟩
        .ok (found.notes.mergeSort fun first second => (compare first.path second.path).isLE)

end Notebook
end Commonplace
