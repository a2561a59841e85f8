import Commonplace.Index.Store

namespace Commonplace
namespace Index

/-!
# Operations on a store

Whatever happens to a store is an operation through one of its handles.  An operation that fails has
a fault in place of an answer.  A rebuild may be one operation or two, between which the source is
read and other operations may happen.
-/

inductive Request where
  | «open»
  | close
  | drop
  | add (note : Note)
  | remove (path : String)
  | get (path : String)
  | find (now : Time.Instant) (options : SearchOptions)
  | count (now : Time.Instant) (options : SearchOptions)
  | stats
  | reindex (source : Option NoteSource) (interruption : Option Nat) (now : Time.Instant)
  | beginReindex
  | finishReindex (source : NoteSource) (interruption : Option Nat) (now : Time.Instant)

/-- A request to a store through a handle, with a token that may have been cancelled. -/
structure Operation where
  handle : String
  cancelled : Bool
  request : Request

/-- What an operation that succeeds gives back. -/
inductive Answer where
  | done
  | note (note : Note)
  | results (results : Results)
  | number (count : Nat)
  | stats (stats : Stats)

namespace Store

/-- The outcome of an operation that gives a new store or fails. -/
def replacedBy (store : Store) : Except Fault Store -> Store × Except Fault Answer
  | .ok changed => (changed, .ok .done)
  | .error fault => (store, .error fault)

variable [PatternEngine]

/-- Carries out an operation. -/
def perform (store : Store) (operation : Operation) : Store × Except Fault Answer :=
  let name := operation.handle
  let cancelled := operation.cancelled
  match operation.request with
  | .open => (store.open name, .ok .done)
  | .close => (store.close name, .ok .done)
  | .drop => (store.drop name, .ok .done)
  | .add note => store.replacedBy (store.add name cancelled note)
  | .remove path => store.replacedBy (store.remove name cancelled path)
  | .get path => (store, (store.get name cancelled path).map .note)
  | .find now options => (store, (store.find name cancelled now options).map .results)
  | .count now options => (store, (store.count name cancelled now options).map .number)
  | .stats => (store, (store.stats name cancelled).map .stats)
  | .reindex source interruption now =>
      let (after, result) := store.reindex name cancelled source interruption now
      (after, result.map fun _ => .done)
  | .beginReindex => store.replacedBy (store.beginReindex name cancelled)
  | .finishReindex source interruption now =>
      let (after, result) := store.finishReindex name source interruption now
      (after, result.map fun _ => .done)

/-- Carries out some operations one after another. -/
def run (store : Store) (operations : List Operation) : Store :=
  operations.foldl (fun store operation => (store.perform operation).1) store

end Store

end Index
end Commonplace
