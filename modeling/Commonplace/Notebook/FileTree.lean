import Commonplace.Time.Instant

namespace Commonplace

/-!
# Trees of files

Directories hold files, directories and links.  A link is a path that starts at the directory that
holds the link, or, with a slash in front, at the root.  A place in the tree is named by the names
on the way to it from the root; following a path means to find the place that it leads to with all
links replaced.
-/

/-- What a directory holds under a name. -/
inductive FileTree where
  | file (bytes : List UInt8) (changed : Time.Instant)
  | directory (entries : List (String × FileTree))
  | link (target : String)
  deriving Inhabited

inductive PathFault where
  | missing
  | notDirectory
  | tooManyLinks
  | alreadyThere
  deriving DecidableEq, Inhabited

def PathFault.message : PathFault -> String
  | missing => "No such file or directory (os error 2)"
  | notDirectory => "Not a directory (os error 20)"
  | tooManyLinks => "Too many levels of symbolic links (os error 40)"
  | alreadyThere => "File exists (os error 17)"

namespace FileTree

def entries : FileTree -> List (String × FileTree)
  | directory entries => entries
  | _ => []

def isDirectory : FileTree -> Bool
  | directory _ => true
  | _ => false

/-- What a directory holds under a name. -/
def child? (tree : FileTree) (name : String) : Option FileTree :=
  (tree.entries.find? fun entry => entry.1 == name).map Prod.snd

def at? (tree : FileTree) : List String -> Option FileTree
  | [] => some tree
  | name :: rest => (tree.child? name).bind fun child => child.at? rest

def parts (path : String) : List String :=
  (path.toList.splitOn '/').map String.ofList

def isAbsolute (path : String) : Bool :=
  path.toList.head? == some '/'

/-- The number of links that may be followed on one way. -/
def linkLimit : Nat :=
  40

/-- Follows the parts of a path from a place.  `reversed` is the place, its last name first. -/
def follow (tree : FileTree) (links : Nat) (reversed : List String) :
    List String -> Except PathFault (List String)
  | [] => .ok reversed.reverse
  | part :: rest =>
      if (tree.at? reversed.reverse).all fun found => !found.isDirectory then
        .error .notDirectory
      else if part == "" || part == "." then follow tree links reversed rest
      else if part == ".." then follow tree links reversed.tail rest
      else
        match tree.at? (reversed.reverse ++ [part]) with
        | none => .error .missing
        | some (.link target) =>
            match links with
            | 0 => .error .tooManyLinks
            | links + 1 =>
                follow tree links (if isAbsolute target then [] else reversed)
                  (parts target ++ rest)
        | some _ => follow tree links (part :: reversed) rest
termination_by pending => (links, pending.length)

/-- The place that a path leads to from a directory. -/
def resolve (tree : FileTree) (start : List String) (path : String) :
    Except PathFault (List String) :=
  tree.follow linkLimit (if isAbsolute path then [] else start.reverse) (parts path)

/-- A tree with something put at a place.  Directories on the way are made if they are missing. -/
def insert : FileTree -> FileTree -> List String -> FileTree
  | _, content, [] => content
  | tree, content, name :: rest =>
      let others := tree.entries.filter fun entry => entry.1 != name
      let child := (tree.child? name).getD (.directory [])
      .directory (others ++ [(name, child.insert content rest)])

/-- Whether nothing is named by the parts of a path. -/
def namesNothing (parts : List String) : Bool :=
  parts.all fun part => part == "" || part == "."

/-- What is wrong when a directory cannot be made or entered on the way along a path. -/
def blockedBy (fault : PathFault) (rest : List String) : PathFault :=
  if namesNothing rest then .alreadyThere else fault

/-- Makes the directories along a path that are missing, and returns the place of the last one. -/
def makeAlong (tree : FileTree) (place : List String) :
    List String -> Except PathFault (FileTree × List String)
  | [] => .ok (tree, place)
  | part :: rest =>
      if part == "" || part == "." then makeAlong tree place rest
      else if part == ".." then makeAlong tree place.dropLast rest
      else
        match tree.at? (place ++ [part]) with
        | none => makeAlong (tree.insert (directory []) (place ++ [part])) (place ++ [part]) rest
        | some _ =>
            match tree.resolve place part with
            | .error .missing => .error .alreadyThere
            | .error fault => .error (blockedBy fault rest)
            | .ok found =>
                if (tree.at? found).any isDirectory then makeAlong tree found rest
                else .error (blockedBy .notDirectory rest)

/-- Makes a directory and those above it, unless they are there.  Returns its place. -/
def makeDirectory (tree : FileTree) (start : List String) (path : String) :
    Except PathFault (FileTree × List String) :=
  tree.makeAlong (if isAbsolute path then [] else start) (parts path)

mutual

def directoryCount : FileTree -> Nat
  | directory entries => directoryCountIn entries + 1
  | file .. => 0
  | link _ => 0

def directoryCountIn : List (String × FileTree) -> Nat
  | [] => 0
  | (_, tree) :: rest => tree.directoryCount + directoryCountIn rest

end

end FileTree

end Commonplace
