import Commonplace.CommandLine.Usage
import Commonplace.Index.Saved
import Std.Time.DateTime.Timestamp

namespace Commonplace

/-!
# The program

Looks at the parts of the machine that a call is about, runs the call on them, and writes down what
it has changed.  What a call means is decided elsewhere.
-/

def pathOfPlace (place : List String) : String :=
  "/" ++ "/".intercalate place

/-- The place that a path leads to on the machine, with all links replaced. -/
def placeOnMachine? (path : String) : IO (Option (List String)) := do
  match <- (IO.FS.realPath path).toBaseIO with
  | .ok real => return some ((FileTree.parts real.toString).filter fun part => !part.isEmpty)
  | .error _ => return none

/-- The content of a note file.  Other files are never read. -/
def contentOf (path name : String) : IO (List UInt8) := do
  if Notebook.isNoteName name then
    match <- (IO.FS.readBinFile path).toBaseIO with
    | .ok bytes => return bytes.toList
    | .error _ => return []
  else return []

/-- A tree with what lies at a place of the machine.  The entries of directories are left out. -/
def withPlace (tree : FileTree) (place : List String) : IO FileTree := do
  if (tree.at? place).isSome then return tree
  let real <- IO.FS.realPath (pathOfPlace place)
  match <- real.metadata.toBaseIO with
  | .error _ => return tree
  | .ok metadata =>
      match metadata.type with
      | .dir => return tree.insert (.directory []) place
      | .file =>
          let bytes <- contentOf (pathOfPlace place) (place.getLastD "")
          let changed : Time.Instant := ⟨metadata.modified.sec, metadata.modified.nsec.toNat⟩
          return tree.insert (.file bytes changed) place
      | _ => return tree

/-- A tree with an entry of a directory, and the place that the entry leads to. -/
def withEntry (tree : FileTree) (directory : List String) (name : String) :
    IO (FileTree × Option (List String)) := do
  let written := directory ++ [name]
  match <- placeOnMachine? (pathOfPlace written) with
  | none => return (tree, none)
  | some place =>
      let tree <- withPlace tree place
      if place == written then return (tree, some place)
      else return (tree.insert (.link (pathOfPlace place)) written, some place)

/-- A tree with everything along a path, as far as the path leads. -/
def withPath (tree : FileTree) (directory : List String) : List String -> IO FileTree
  | [] => return tree
  | part :: rest => do
      if part == "" || part == "." then withPath tree directory rest
      else if part == ".." then withPath tree directory.dropLast rest
      else
        match <- withEntry tree directory part with
        | (tree, some place) => withPath tree place rest
        | (tree, none) => return tree

/-- A tree with everything below a directory that is not hidden. -/
partial def withNotebook (tree : FileTree) (entered : List (List String))
    (directory : List String) : IO (FileTree × List (List String)) := do
  if entered.contains directory then return (tree, entered)
  let real <- IO.FS.realPath (pathOfPlace directory)
  let mut tree := tree
  let mut entered := directory :: entered
  for entry in <- real.readDir do
    if !Notebook.isHidden entry.fileName then
      let (widened, place) <- withEntry tree directory entry.fileName
      tree := widened
      if let some place := place then
        if (tree.at? place).any FileTree.isDirectory then
          (tree, entered) <- withNotebook tree entered place
  return (tree, entered)

/-- A tree with the path of a notebook and everything below it. -/
def withNotebookAt (tree : FileTree) (here : List String) (path : String) : IO FileTree := do
  let tree <- withPath tree (if FileTree.isAbsolute path then [] else here) (FileTree.parts path)
  match tree.resolve here path with
  | .error _ => return tree
  | .ok place =>
      if (tree.at? place).any FileTree.isDirectory then
        return (<- withNotebook tree [] place).1
      else return tree

/-- Makes the directories of a tree that the machine does not have. -/
partial def makeMissing (tree : FileTree) (place : List String) : IO Unit := do
  for (name, child) in tree.entries do
    if child.isDirectory then
      if (<- placeOnMachine? (pathOfPlace (place ++ [name]))).isNone then
        IO.FS.createDir (pathOfPlace (place ++ [name]))
      makeMissing child (place ++ [name])

/-- The file in which a store is saved, by the name of the place of the store. -/
def savedPath (key : String) : String :=
  "/" ++ key ++ "/notes.json"

/-- The store that is saved in a file, if there is one, and its size. -/
def savedStore? (path : String) : IO (Option (Except Fault Index.Store × Nat)) := do
  match <- (IO.FS.readFile path).toBaseIO with
  | .ok text => return some (Index.Store.load text, text.utf8ByteSize)
  | .error _ => return none

/-- What the environment says about directories. -/
def readEnvironment : IO CommandLine.Environment := do
  return ⟨<- IO.getEnv "NOTESEARCH_DATA_DIR", <- IO.getEnv "XDG_DATA_HOME", <- IO.getEnv "HOME"⟩

/-- The time on the clock of the machine. -/
def readClock : IO Time.Instant := do
  let nanoseconds := (<- Std.Time.Timestamp.now).toNanosecondsSinceUnixEpoch.val
  return ⟨nanoseconds.fdiv 1000000000, (nanoseconds.fmod 1000000000).toNat⟩

/-- The machine as far as a call is about it, or what is wrong with the store of the call. -/
def readMachine (environment : CommandLine.Environment) (call : CommandLine.Call) :
    IO (Except Fault CommandLine.Machine) := do
  let here := (FileTree.parts (<- IO.currentDir).toString).filter fun part => !part.isEmpty
  let files <- withPath (.directory []) [] here
  let machine : CommandLine.Machine := ⟨files, here, [], 0, <- readClock⟩
  let .onStore command := call.command | return .ok machine
  let .ok root := CommandLine.dataRoot environment call.dataDirectory | return .ok machine
  let directory := CommandLine.below root "index"
  let start := if FileTree.isAbsolute directory then [] else here
  let files <- withPath machine.files start (FileTree.parts directory)
  let files <-
    match command with
    | .reindex notebook => withNotebookAt files here notebook
    | _ => pure files
  let machine := { machine with files := files }
  let .ok place := files.resolve here directory | return .ok machine
  let key := "/".intercalate place
  match <- savedStore? (savedPath key) with
  | none => return .ok machine
  | some (.error fault, _) => return .error fault
  | some (.ok store, size) =>
      return .ok { machine with stores := [(key, store)], storeSize := size }

/-- Writes down the directories and the stores that a call has changed. -/
def writeMachine (before after : CommandLine.Machine) : IO Unit := do
  makeMissing after.files []
  for (key, store) in after.stores do
    if ((findEntry key before.stores).map Index.Store.number).getD 0 != store.number then
      IO.FS.writeFile (savedPath key) store.save

def runCall [Index.PatternEngine] (call : CommandLine.Call) : IO CommandLine.Outcome := do
  let environment <- readEnvironment
  match <- readMachine environment call with
  | .error fault => return CommandLine.reported fault
  | .ok machine =>
      let (changed, outcome) := CommandLine.run environment machine call
      writeMachine machine changed
      return outcome

end Commonplace

open Commonplace in
open scoped Commonplace.Index.PatternEngine in
/-- Runs the program on its arguments and returns its exit code.  Its engine refuses no pattern. -/
def main (arguments : List String) : IO UInt32 := do
  let outcome <-
    match CommandLine.Call.read arguments with
    | .error stop => pure stop.outcome
    | .ok call => runCall call
  IO.print outcome.out
  IO.eprint outcome.err
  return outcome.code.toUInt32
