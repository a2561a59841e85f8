import Commonplace.Index.Slot

namespace Commonplace
namespace Index

/-!
# Writers

A writer keeps notes in segments: the notes that were added between two commits make up one.  A
removal is not carried out at once.  It is entered into a list that every segment reads on its own,
from where it stopped, when the writer commits.

Everything that a writer does is numbered, and a segment reads on only while the removals have no
higher number than the commit.  A writer that is cleared counts from its first number again, but
the list stays.  A segment that is made after that may find older removals in front of it, which
have higher numbers than its notes.  It stops at them, and does not see the removals behind them,
until the count has caught up; then it carries all of them out.

A note that was removed still counts when terms are counted, as long as its segment holds another
note.
-/

/-- What an index holds after a commit. -/
structure Contents where
  notes : List Note
  /-- The notes and those removed ones that still count. -/
  counted : List Note
  deriving Inhabited

def Contents.empty : Contents :=
  ⟨[], []⟩

/-- An entry of the list of removals: the notes with a path are to go. -/
structure Removal where
  number : Nat
  path : String
  deriving DecidableEq, Inhabited

/-- Notes that were added together. -/
structure Segment where
  /-- The notes that are left. -/
  notes : List Note
  /-- All notes that were added. -/
  counted : List Note
  /-- The removals that the notes have not been checked against. -/
  ahead : List Removal
  deriving Inhabited

/-- A writer. -/
structure Writer where
  /-- The number from which it counts. -/
  first : Nat
  /-- The number of the next thing that it does. -/
  next : Nat
  /-- The end of the list of removals that nothing has read yet. -/
  unread : List Removal
  /-- The removals that lie ahead of the next segment. -/
  ahead : List Removal
  segments : List Segment
  deriving Inhabited

namespace Removal

def concerns (note : Note) (removal : Removal) : Bool :=
  hasPath removal.path note

/-- What is still unread after someone has read up to a rest of the list. -/
def unreadAfter (rest unread : List Removal) : List Removal :=
  if rest.length ≤ unread.length then [] else unread

end Removal

namespace Segment

/-- The notes of a segment that are left when all removals up to a number are carried out. -/
def checked (number : Nat) (segment : Segment) : Segment :=
  let due := segment.ahead.takeWhile fun removal => removal.number ≤ number
  { segment with
    notes := segment.notes.filter fun note => !due.any (Removal.concerns note)
    ahead := segment.ahead.dropWhile fun removal => removal.number ≤ number }

/-- The segment of some notes, which are numbered from `first` on.  A removal that is due at once
concerns only notes with a smaller number. -/
def ofNotes (ahead : List Removal) (first : Nat) (notes : List Note) : Segment :=
  let last := first + notes.length - 1
  let due := ahead.takeWhile fun removal => removal.number ≤ last
  let kept := (notes.zipIdx first).filter fun entry =>
    !due.any fun removal => removal.concerns entry.1 && entry.2 < removal.number
  { notes := kept.map Prod.fst
    counted := notes
    ahead := ahead.dropWhile fun removal => removal.number ≤ last }

end Segment

namespace Writer

/-- The writer of an index with some contents after a commit with a number. -/
def start (number : Nat) (contents : Contents) : Writer :=
  ⟨number, number, [], [],
    if contents.notes.isEmpty then [] else [⟨contents.notes, contents.counted, []⟩]⟩

def contents (writer : Writer) : Contents :=
  ⟨writer.segments.flatMap Segment.notes, writer.segments.flatMap Segment.counted⟩

def remove (writer : Writer) (path : String) : Writer :=
  let removal : Removal := ⟨writer.next, path⟩
  { writer with
    next := writer.next + 1
    unread := writer.unread ++ [removal]
    ahead := writer.ahead ++ [removal]
    segments := writer.segments.map fun segment =>
      { segment with ahead := segment.ahead ++ [removal] } }

/-- Drops all segments and counts from the first number again. -/
def clear (writer : Writer) : Writer :=
  { writer with next := writer.first, segments := [] }

/-- Adds notes as a new segment.  The segment takes a number of its own. -/
def add (writer : Writer) (notes : List Note) : Writer :=
  if notes.isEmpty then writer
  else
    let ahead := writer.ahead.dropWhile fun removal => removal.number < writer.next
    let segment := Segment.ofNotes ahead writer.next notes
    { writer with
      next := writer.next + notes.length + 1
      unread := Removal.unreadAfter segment.ahead (Removal.unreadAfter ahead writer.unread)
      segments := writer.segments ++ [segment] }

/-- Commits: all segments are checked, and empty ones are dropped.  The commit takes a number, and
so does the look for segments to merge that follows it. -/
def commit (writer : Writer) : Writer :=
  let segments := writer.segments.map (Segment.checked writer.next)
  { writer with
    next := writer.next + 2
    ahead := writer.unread
    unread := segments.foldl (fun unread segment => Removal.unreadAfter segment.ahead unread)
      writer.unread
    segments := segments.filter fun segment => !segment.notes.isEmpty }

/-- The number of the last commit of a writer that has just committed. -/
def committedNumber (writer : Writer) : Nat :=
  writer.next - 2

end Writer

end Index
end Commonplace
