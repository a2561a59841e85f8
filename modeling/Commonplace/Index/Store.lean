import Commonplace.Index.Results
import Commonplace.Index.Writer

namespace Commonplace
namespace Index

/-!
# Stores and their handles

A store holds the notes that were committed last.  It is used through handles.  A handle reads the
notes that were committed when it was opened or when it last wrote itself.  The first write of a
handle takes the writer's lock of the store, and the handle keeps it until it is closed, so that at
most one handle writes.  A store that lies on disk outlives its handles.

Every operation looks first whether it was cancelled, and one that fails leaves all notes as they
were.
-/

inductive Status where
  | unopened
  | indexing
  | ready
  | failed
  deriving DecidableEq, Inhabited

def Status.name : Status -> String
  | unopened => "unopened"
  | indexing => "indexing"
  | ready => "ready"
  | failed => "error"

structure Handle where
  /-- What it reads, unless it is closed. -/
  view : Option Contents
  status : Status
  /-- When it last rebuilt the store, if it ever did. -/
  indexedAt : Option Time.Instant
  deriving Inhabited

/-- What is known of a store through a handle. -/
structure Stats where
  noteCount : Nat
  status : Status
  indexedAt : Option Time.Instant
  onDisk : Bool
  deriving DecidableEq, Inhabited

/-- A store. -/
structure Store where
  onDisk : Bool
  committed : Contents
  /-- The number of the last commit. -/
  number : Nat
  /-- The writer, and the handle that holds it. -/
  writer : Option (String × Writer)
  handles : List (String × Handle)
  deriving Inhabited

/-- Where the notes come from when a store is rebuilt: the notes, or why there are none. -/
abbrev NoteSource := Except Fault (List Note)

namespace Store

/-- A store without notes and handles. -/
def empty (onDisk : Bool) : Store :=
  ⟨onDisk, .empty, 0, none, []⟩

def handle? (store : Store) (name : String) : Option Handle :=
  findEntry name store.handles

def withHandle (store : Store) (name : String) (handle : Handle) : Store :=
  { store with handles := setEntry name handle store.handles }

def updateHandle (store : Store) (name : String) (change : Handle -> Handle) : Store :=
  match store.handle? name with
  | none => store
  | some handle => store.withHandle name (change handle)

/-- A store whose lock is not held by a handle. -/
def withoutLock (store : Store) (name : String) : Store :=
  { store with writer := store.writer.filter fun holder => holder.1 != name }

/-- What outlives the handles of a store. -/
def lasting (store : Store) : Store :=
  if store.onDisk then store else { empty false with handles := store.handles }

/-- Opens a handle.  An older handle with the name is dropped, and with it what was in memory. -/
def «open» (store : Store) (name : String) : Store :=
  let kept := store.lasting.withoutLock name
  kept.withHandle name ⟨some kept.committed, .ready, none⟩

/-- Opens a handle unless there is one with the name. -/
def ensureOpen (store : Store) (name : String) : Store :=
  if (store.handle? name).isSome then store else store.open name

def close (store : Store) (name : String) : Store :=
  (store.withoutLock name).updateHandle name fun handle =>
    { handle with view := none, status := .unopened }

def drop (store : Store) (name : String) : Store :=
  { store.withoutLock name with
    handles := store.handles.filter fun handle => handle.1 != name }

/-- What a handle reads, unless the operation was cancelled or the handle is closed. -/
def view (store : Store) (name : String) (cancelled : Bool) : Except Fault Contents :=
  if cancelled then .error .cancelled
  else
    match (store.handle? name).bind Handle.view with
    | none => .error .closed
    | some contents => .ok contents

def mayWrite (store : Store) (name : String) : Bool :=
  store.writer.all fun holder => holder.1 == name

/-- The writer through which a handle writes: the one that it holds, or a new one. -/
def writerFor (store : Store) : Writer :=
  (store.writer.map Prod.snd).getD (.start store.number store.committed)

def commit (store : Store) (name : String) (written : Writer) : Store :=
  let writer := written.commit
  let committed : Store := { store with
    committed := writer.contents
    number := writer.committedNumber
    writer := some (name, writer) }
  committed.updateHandle name fun handle => { handle with view := some writer.contents }

/-- Writes through a handle. -/
def write (store : Store) (name : String) (cancelled : Bool) (operation path : String)
    (change : Writer -> Writer) : Except Fault Store := do
  let _ <- store.view name cancelled
  if store.mayWrite name then return store.commit name (change store.writerFor)
  else throw ((Fault.locked Fault.heldLock).wrap operation path)

def add (store : Store) (name : String) (cancelled : Bool) (note : Note) : Except Fault Store :=
  store.write name cancelled "add" note.path fun writer =>
    (writer.remove note.path).add [note]

def remove (store : Store) (name : String) (cancelled : Bool) (path : String) :
    Except Fault Store :=
  store.write name cancelled "remove" path fun writer => writer.remove path

def get (store : Store) (name : String) (cancelled : Bool) (path : String) :
    Except Fault Note := do
  Index.get (<- store.view name cancelled) path

def find [PatternEngine] (store : Store) (name : String) (cancelled : Bool) (now : Time.Instant)
    (options : SearchOptions) : Except Fault Results := do
  Index.find (<- store.view name cancelled) now options

def count [PatternEngine] (store : Store) (name : String) (cancelled : Bool) (now : Time.Instant)
    (options : SearchOptions) : Except Fault Nat := do
  Index.count (<- store.view name cancelled) now options

def stats (store : Store) (name : String) (cancelled : Bool) : Except Fault Stats := do
  let contents <- store.view name cancelled
  let handle := (store.handle? name).getD default
  return ⟨contents.notes.length, handle.status, handle.indexedAt, store.onDisk⟩

/-- The status of a handle after it failed to rebuild the store. -/
def statusAfter : Fault -> Status
  | .cancelled => .ready
  | .closed => .unopened
  | _ => .failed

/-- Starts to rebuild the store.  While the source is read, nothing is locked, and the handle shows
that it is at work. -/
def beginReindex (store : Store) (name : String) (cancelled : Bool) : Except Fault Store := do
  let _ <- store.view name cancelled
  return store.updateHandle name fun handle => { handle with status := .indexing }

/-- Replaces all notes through a handle.  The token of the operation is looked at before each note,
and `interruption` is the number of notes that are written before it asks to stop.  What was
written until then is taken back, and the handle starts again from the last commit. -/
def replaceAll (store : Store) (name : String) (notes : List Note) (interruption : Option Nat) :
    Store × Except Fault Unit :=
  match store.view name false with
  | .error fault => (store, .error fault)
  | .ok _ =>
      if !store.mayWrite name then (store, .error (.locked Fault.heldLock))
      else if interruption.any fun written => written < notes.length then
        ({ store with writer := some (name, .start store.number store.committed) },
          .error .cancelled)
      else (store.commit name (store.writerFor.clear.add notes), .ok ())

/-- Finishes to rebuild the store with what a source gave at a given time.  The handle remembers how
that went. -/
def finishReindex (store : Store) (name : String) (source : NoteSource)
    (interruption : Option Nat) (now : Time.Instant) : Store × Except Fault Unit :=
  let (written, result) :=
    match source with
    | .ok notes => store.replaceAll name notes interruption
    | .error fault => (store, .error fault)
  match result with
  | .ok () =>
      (written.updateHandle name fun handle =>
        { handle with status := .ready, indexedAt := some now }, .ok ())
  | .error fault =>
      (written.updateHandle name fun handle => { handle with status := statusAfter fault },
        .error (fault.wrap "reindex" ""))

/-- Replaces all notes by those of a source. -/
def reindex (store : Store) (name : String) (cancelled : Bool) (source : Option NoteSource)
    (interruption : Option Nat) (now : Time.Instant) : Store × Except Fault Unit :=
  match source with
  | none =>
      (store, .error (if cancelled then .cancelled
        else .config "no document source configured for reindex"))
  | some source =>
      match store.beginReindex name cancelled with
      | .error fault => (store, .error fault)
      | .ok begun => begun.finishReindex name source interruption now

end Store

end Index
end Commonplace
