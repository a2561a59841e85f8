import Commonplace.Index.Operation
import Commonplace.Proofs.Index.Commits

namespace Commonplace
namespace Index

/-!
# What one operation does

A store is seen through what its handles read, what it committed last, who holds its writer, and
when its handles last rebuilt it.  Every operation makes one of six moves, and what a move does to
the view of the store is said here once.  Statements about runs need nothing else of the operations.
-/

/-! ## Entries of a list -/

@[simp] theorem findEntry_setEntry {value : Type} (key other : String) (entry : value)
    (entries : List (String × value)) :
    findEntry other (setEntry key entry entries) =
      if other = key then some entry else findEntry other entries := by
  induction entries with
  | nil =>
      by_cases same : other = key
      · simp [setEntry, findEntry, same]
      · simp [setEntry, findEntry, same, Ne.symm same]
  | cons head tail inductionHypothesis =>
      simp only [findEntry] at inductionHypothesis ⊢
      by_cases same : other = key
      · subst same
        simp only [if_true] at inductionHypothesis ⊢
        by_cases before : other < head.1
        · simp [setEntry, before]
        · by_cases here : other = head.1
          · simp [setEntry, here]
          · have apart : (head.1 == other) = false := beq_eq_false_iff_ne.mpr (Ne.symm here)
            simp [setEntry, before, here, apart, inductionHypothesis]
      · have apart : (key == other) = false := beq_eq_false_iff_ne.mpr (Ne.symm same)
        simp only [same, if_false] at inductionHypothesis ⊢
        by_cases before : key < head.1
        · simp [setEntry, before, apart]
        · by_cases here : key = head.1
          · simp [setEntry, ← here, apart]
          · cases found : head.1 == other <;>
              simp [setEntry, before, here, found, inductionHypothesis]

/-- The first item with a key among those that do not have another key. -/
theorem find?_filter_key {item : Type} (key : item -> String) (avoided wanted : String)
    (items : List item) :
    ((items.filter fun entry => key entry != avoided).find? fun entry => key entry == wanted) =
      if wanted = avoided then none else items.find? fun entry => key entry == wanted := by
  rw [List.find?_filter]
  by_cases same : wanted = avoided
  · rw [if_pos same, List.find?_eq_none]
    intro entry _
    simp [same]
  · rw [if_neg same]
    congr 1
    funext entry
    by_cases found : key entry = wanted
    · have kept : key entry ≠ avoided := by
        rw [found]
        exact same
      rw [bne_iff_ne.mpr kept]
      simp [found]
    · simp [found]

@[simp] theorem findEntry_filter {value : Type} (key other : String)
    (entries : List (String × value)) :
    findEntry other (entries.filter fun entry => entry.1 != key) =
      if other = key then none else findEntry other entries := by
  rw [findEntry, find?_filter_key]
  by_cases same : other = key
  · rw [if_pos same, if_pos same]
    rfl
  · rw [if_neg same, if_neg same]
    rfl

namespace Request

/-- The notes that a request puts in place of all others, if it does. -/
def replacement? : Request -> Option (List Note)
  | reindex (some (.ok notes)) _ _ => some notes
  | finishReindex (.ok notes) _ _ => some notes
  | _ => none

/-- How a request changes the writer, if it writes. -/
def change? : Request -> Option (Writer -> Writer)
  | add note => some fun writer => (writer.remove note.path).add [note]
  | remove path => some fun writer => writer.remove path
  | request => request.replacement?.map fun notes writer => writer.clear.add notes

/-- After how many notes a request is told to stop, if it is a rebuild that is told to. -/
def interruption? : Request -> Option Nat
  | reindex _ interruption _ => interruption
  | finishReindex _ interruption _ => interruption
  | _ => none

/-- Whether a request is told to stop before it has written all notes of a rebuild. -/
def isInterrupted (request : Request) : Bool :=
  request.replacement?.any fun notes =>
    request.interruption?.any fun written => written < notes.length

/-- Whether the handle that is there before a request is there after it. -/
def keepsHandle : Request -> Bool
  | «open» | close | drop => false
  | _ => true

theorem keepsHandle_of_change? {request : Request} (writes : request.change?.isSome) :
    request.keepsHandle = true := by
  cases request with
  | «open» | close | drop => cases writes
  | add | remove | get | find | count | stats | reindex | beginReindex | finishReindex => rfl

/-- Whether a request looks at its token before anything else.  The second half of a rebuild looks
at it only between the notes. -/
def heedsToken : Request -> Bool
  | «open» | close | drop | finishReindex .. => false
  | _ => true

end Request

/-- Whether an operation has no chance to begin, because its token is cancelled. -/
def Operation.isStopped (operation : Operation) : Bool :=
  operation.cancelled && operation.request.heedsToken

theorem Operation.isStopped_of_heedsToken {operation : Operation}
    (heeds : operation.request.heedsToken = true) : operation.isStopped = operation.cancelled := by
  rw [isStopped, heeds, Bool.and_true]

namespace Store

/-! ## The view of a store -/

/-- What a handle reads, if it is open. -/
def reading (store : Store) (name : String) : Option Contents :=
  (store.handle? name).bind Handle.view

/-- When a handle last rebuilt the store, if it ever did. -/
def indexedAt (store : Store) (name : String) : Option Time.Instant :=
  (store.handle? name).bind Handle.indexedAt

/-- The handle that holds the writer. -/
def holder (store : Store) : Option String :=
  store.writer.map Prod.fst

/-- Two states of a store that cannot be told apart but by the status of their handles. -/
structure Undisturbed (before after : Store) : Prop where
  onDisk : after.onDisk = before.onDisk
  committed : after.committed = before.committed
  number : after.number = before.number
  writer : after.writer = before.writer
  reading : ∀ name, after.reading name = before.reading name
  indexedAt : ∀ name, after.indexedAt name = before.indexedAt name

theorem Undisturbed.refl (store : Store) : Undisturbed store store :=
  ⟨rfl, rfl, rfl, rfl, fun _ => rfl, fun _ => rfl⟩

theorem Undisturbed.trans {first second third : Store} (early : Undisturbed first second)
    (late : Undisturbed second third) : Undisturbed first third where
  onDisk := late.onDisk.trans early.onDisk
  committed := late.committed.trans early.committed
  number := late.number.trans early.number
  writer := late.writer.trans early.writer
  reading := fun name => (late.reading name).trans (early.reading name)
  indexedAt := fun name => (late.indexedAt name).trans (early.indexedAt name)

theorem handle?_withHandle (store : Store) (name other : String) (handle : Handle) :
    (store.withHandle name handle).handle? other =
      if other = name then some handle else store.handle? other :=
  findEntry_setEntry name other handle store.handles

theorem handle?_updateHandle (store : Store) (name other : String) (change : Handle -> Handle) :
    (store.updateHandle name change).handle? other =
      if other = name then (store.handle? name).map change else store.handle? other := by
  cases held : store.handle? name with
  | none =>
      simp only [updateHandle, held, Option.map_none]
      by_cases same : other = name
      · rw [if_pos same, same, held]
      · rw [if_neg same]
  | some handle => simp only [updateHandle, held, handle?_withHandle, Option.map_some]

theorem updateHandle_fields (store : Store) (name : String) (change : Handle -> Handle) :
    (store.updateHandle name change).onDisk = store.onDisk ∧
      (store.updateHandle name change).committed = store.committed ∧
      (store.updateHandle name change).number = store.number ∧
      (store.updateHandle name change).writer = store.writer := by
  cases held : store.handle? name <;> simp [updateHandle, held, withHandle]

/-- What a changed handle reads. -/
theorem reading_updateHandle (store : Store) (name other : String) (change : Handle -> Handle) :
    (store.updateHandle name change).reading other =
      if other = name then (store.handle? name).bind fun handle => (change handle).view
      else store.reading other := by
  rw [reading, handle?_updateHandle]
  by_cases same : other = name
  · rw [if_pos same, if_pos same, Option.bind_map]
    rfl
  · rw [if_neg same, if_neg same]
    rfl

theorem indexedAt_updateHandle (store : Store) (name other : String) (change : Handle -> Handle) :
    (store.updateHandle name change).indexedAt other =
      if other = name then (store.handle? name).bind fun handle => (change handle).indexedAt
      else store.indexedAt other := by
  rw [indexedAt, handle?_updateHandle]
  by_cases same : other = name
  · rw [if_pos same, if_pos same, Option.bind_map]
    rfl
  · rw [if_neg same, if_neg same]
    rfl

/-- A change of a handle that leaves what it reads and when it rebuilt the store disturbs
nothing. -/
theorem undisturbed_updateHandle (store : Store) (name : String) {change : Handle -> Handle}
    (sameView : ∀ handle, (change handle).view = handle.view)
    (sameTime : ∀ handle, (change handle).indexedAt = handle.indexedAt) :
    Undisturbed store (store.updateHandle name change) := by
  have fields := store.updateHandle_fields name change
  refine ⟨fields.1, fields.2.1, fields.2.2.1, fields.2.2.2, ?_, ?_⟩
  · intro other
    rw [reading_updateHandle]
    by_cases same : other = name
    · rw [if_pos same, same, reading]
      congr 1
      exact funext sameView
    · rw [if_neg same]
  · intro other
    rw [indexedAt_updateHandle]
    by_cases same : other = name
    · rw [if_pos same, same, indexedAt]
      congr 1
      exact funext sameTime
    · rw [if_neg same]

/-! ## Moves -/

/-- The writer of a handle went back to the last commit. -/
structure Interrupted (before : Store) (name : String) (after : Store) : Prop where
  onDisk : after.onDisk = before.onDisk
  committed : after.committed = before.committed
  number : after.number = before.number
  writer : after.writer = some (name, .start before.number before.committed)
  reading : ∀ other, after.reading other = before.reading other
  indexedAt : ∀ other, after.indexedAt other = before.indexedAt other

/-- A handle committed what was written, and reads it. -/
structure Published (before : Store) (name : String) (written : Writer) (after : Store) :
    Prop where
  onDisk : after.onDisk = before.onDisk
  committed : after.committed = written.commit.contents
  number : after.number = written.commit.committedNumber
  writer : after.writer = some (name, written.commit)
  reading : ∀ other, after.reading other =
    if other = name then some after.committed else before.reading other

/-- A handle was opened, and reads what is committed. -/
structure Opened (before : Store) (name : String) (after : Store) : Prop where
  onDisk : after.onDisk = before.onDisk
  committed : after.committed = before.lasting.committed
  number : after.number = before.lasting.number
  writer : after.writer = before.lasting.writer.filter fun holder => holder.1 != name
  reading : ∀ other, after.reading other =
    if other = name then some after.committed else before.reading other

/-- A handle was closed or dropped. -/
structure Shut (before : Store) (name : String) (after : Store) : Prop where
  onDisk : after.onDisk = before.onDisk
  committed : after.committed = before.committed
  number : after.number = before.number
  writer : after.writer = before.writer.filter fun holder => holder.1 != name
  reading : ∀ other, after.reading other = if other = name then none else before.reading other

/-- Whether an operation gets the writer of a store. -/
structure Admits (store : Store) (operation : Operation) : Prop where
  begins : operation.isStopped = false
  writes : operation.request.change?.isSome
  isOpen : (store.reading operation.handle).isSome
  mayWrite : store.mayWrite operation.handle

/-- What an operation did to a store, and what came of it. -/
inductive Move (before : Store) (operation : Operation) (after : Store)
    (outcome : Except Fault Answer) : Prop where
  | answered {answer : Answer} (gives : outcome = .ok answer) (quiet : Undisturbed before after)
      (keeps : operation.request.keepsHandle = true)
      (onlyReads : operation.request.change? = none)
  | refused {fault : Fault} (gives : outcome = .error fault) (quiet : Undisturbed before after)
      (keeps : operation.request.keepsHandle = true) (notAdmitted : ¬ before.Admits operation)
  | interrupted {fault : Fault} (gives : outcome = .error fault)
      (admitted : before.Admits operation) (stopped : operation.request.isInterrupted = true)
      (back : Interrupted before operation.handle after)
  | published {change : Writer -> Writer} (gives : outcome = .ok .done)
      (admitted : before.Admits operation) (goesOn : operation.request.isInterrupted = false)
      (asked : operation.request.change? = some change)
      (written : Published before operation.handle (change before.writerFor) after)
  | opened (gives : outcome = .ok .done) (asked : operation.request = .open)
      (opened : Opened before operation.handle after)
  | shut (gives : outcome = .ok .done)
      (asked : operation.request = .close ∨ operation.request = .drop)
      (shut : Shut before operation.handle after)

theorem lasting_onDisk (store : Store) : store.lasting.onDisk = store.onDisk := by
  unfold lasting
  split
  · rfl
  · rename_i inMemory
    exact (Bool.eq_false_iff.mpr inMemory).symm

theorem lasting_reading (store : Store) (name : String) :
    store.lasting.reading name = store.reading name := by
  unfold lasting
  split <;> rfl

theorem lasting_of_onDisk {store : Store} (onDisk : store.onDisk = true) :
    store.lasting = store := by
  rw [lasting, if_pos onDisk]

theorem opened_open (store : Store) (name : String) : Opened store name (store.open name) where
  onDisk := store.lasting_onDisk
  committed := rfl
  number := rfl
  writer := rfl
  reading := by
    intro other
    rw [reading, «open», handle?_withHandle]
    by_cases same : other = name
    · rw [if_pos same, if_pos same]
      rfl
    · rw [if_neg same, if_neg same]
      exact store.lasting_reading other

theorem shut_close (store : Store) (name : String) : Shut store name (store.close name) := by
  have fields := (store.withoutLock name).updateHandle_fields name fun handle =>
    { handle with view := none, status := .unopened }
  refine ⟨fields.1, fields.2.1, fields.2.2.1, fields.2.2.2, ?_⟩
  intro other
  rw [close, reading_updateHandle]
  by_cases same : other = name
  · rw [if_pos same, if_pos same]
    cases (store.withoutLock name).handle? name <;> rfl
  · rw [if_neg same, if_neg same]
    rfl

theorem shut_drop (store : Store) (name : String) : Shut store name (store.drop name) where
  onDisk := rfl
  committed := rfl
  number := rfl
  writer := rfl
  reading := by
    intro other
    change (findEntry other (store.handles.filter fun handle => handle.1 != name)).bind _ = _
    rw [findEntry_filter]
    by_cases same : other = name
    · rw [if_pos same, if_pos same]
      rfl
    · rw [if_neg same, if_neg same]
      rfl

theorem isSome_handle?_of_reading {store : Store} {name : String}
    (isOpen : (store.reading name).isSome) : (store.handle? name).isSome := by
  unfold reading at isOpen
  cases held : store.handle? name with
  | none =>
      rw [held] at isOpen
      cases isOpen
  | some handle => rfl

theorem published_commit {store : Store} {name : String} (isOpen : (store.reading name).isSome)
    (written : Writer) : Published store name written (store.commit name written) := by
  rcases Option.isSome_iff_exists.mp (isSome_handle?_of_reading isOpen) with ⟨handle, held⟩
  have fields := updateHandle_fields
    { store with
      committed := written.commit.contents
      number := written.commit.committedNumber
      writer := some (name, written.commit) }
    name fun handle => { handle with view := some written.commit.contents }
  have sameCommitted : (store.commit name written).committed = written.commit.contents :=
    fields.2.1
  refine ⟨fields.1, sameCommitted, fields.2.2.1, fields.2.2.2, ?_⟩
  intro other
  rw [sameCommitted, commit, reading_updateHandle]
  by_cases same : other = name
  · rw [if_pos same, if_pos same]
    change (store.handle? name).bind _ = _
    rw [held]
    rfl
  · rw [if_neg same, if_neg same]
    rfl

/-! ## What comes of a write -/

theorem view_of_reading {store : Store} {name : String} {contents : Contents}
    (reads : store.reading name = some contents) : store.view name false = .ok contents := by
  rw [reading] at reads
  simp [view, reads]

theorem view_of_closed {store : Store} {name : String} (closed : store.reading name = none) :
    store.view name false = .error .closed := by
  rw [reading] at closed
  simp [view, closed]

section Answers

variable [PatternEngine] {store : Store} {name : String} {contents : Contents}
  (reads : store.reading name = some contents)

include reads

theorem perform_get (path : String) :
    (store.perform ⟨name, false, .get path⟩).2 = (Index.get contents path).map .note := by
  simp only [perform, get, view_of_reading reads]
  rfl

theorem perform_find (now : Time.Instant) (options : SearchOptions) :
    (store.perform ⟨name, false, .find now options⟩).2 =
      (Index.find contents now options).map .results := by
  simp only [perform, find, view_of_reading reads]
  rfl

theorem perform_count (now : Time.Instant) (options : SearchOptions) :
    (store.perform ⟨name, false, .count now options⟩).2 =
      (Index.count contents now options).map .number := by
  simp only [perform, count, view_of_reading reads]
  rfl

end Answers

theorem view_error_or_ok (store : Store) (name : String) (cancelled : Bool) :
    (∃ fault, store.view name cancelled = .error fault ∧
        ¬(cancelled = false ∧ (store.reading name).isSome)) ∨
      ∃ contents, store.view name cancelled = .ok contents ∧ cancelled = false ∧
        store.reading name = some contents := by
  cases cancelled with
  | true =>
      left
      exact ⟨.cancelled, rfl, fun live => nomatch live.1⟩
  | false =>
      cases reads : store.reading name with
      | none =>
          left
          exact ⟨.closed, view_of_closed reads, fun live => nomatch live.2⟩
      | some contents =>
          right
          exact ⟨contents, view_of_reading reads, rfl, rfl⟩

theorem write_error_or_ok (store : Store) (name : String) (cancelled : Bool)
    (operation path : String) (change : Writer -> Writer) :
    (∃ fault, store.write name cancelled operation path change = .error fault ∧
        ¬(cancelled = false ∧ (store.reading name).isSome ∧ store.mayWrite name)) ∨
      (store.write name cancelled operation path change =
          .ok (store.commit name (change store.writerFor)) ∧
        cancelled = false ∧ (store.reading name).isSome ∧ store.mayWrite name) := by
  rcases store.view_error_or_ok name cancelled with
    ⟨fault, failed, notLive⟩ | ⟨contents, seen, live, reads⟩
  · left
    refine ⟨fault, ?_, fun admitted => notLive ⟨admitted.1, admitted.2.1⟩⟩
    simp only [write, failed]
    rfl
  · have isOpen : (store.reading name).isSome := by
      rw [reads]
      rfl
    cases may : store.mayWrite name with
    | false =>
        left
        refine ⟨(Fault.locked Fault.heldLock).wrap operation path, ?_,
          fun admitted => nomatch admitted.2.2⟩
        simp only [write, seen, may]
        rfl
    | true =>
        right
        refine ⟨?_, live, isOpen, rfl⟩
        simp only [write, seen, may]
        rfl

/-- What replacing all notes may come to. -/
theorem replaceAll_cases (store : Store) (name : String) (notes : List Note)
    (interruption : Option Nat) :
    (∃ fault, store.replaceAll name notes interruption = (store, .error fault) ∧
        ¬((store.reading name).isSome ∧ store.mayWrite name)) ∨
      ((store.reading name).isSome ∧ store.mayWrite name ∧
        (((interruption.any fun written => written < notes.length) = true ∧
            store.replaceAll name notes interruption =
              ({ store with writer := some (name, .start store.number store.committed) },
                .error .cancelled)) ∨
          ((interruption.any fun written => written < notes.length) = false ∧
            store.replaceAll name notes interruption =
              (store.commit name (store.writerFor.clear.add notes), .ok ())))) := by
  rcases store.view_error_or_ok name false with
    ⟨fault, failed, notLive⟩ | ⟨contents, seen, _, reads⟩
  · left
    refine ⟨fault, ?_, fun admitted => notLive ⟨rfl, admitted.1⟩⟩
    simp only [replaceAll, failed]
  · have isOpen : (store.reading name).isSome := by
      rw [reads]
      rfl
    cases may : store.mayWrite name with
    | false =>
        left
        refine ⟨.locked Fault.heldLock, ?_, fun admitted => nomatch admitted.2⟩
        simp [replaceAll, seen, may]
    | true =>
        right
        refine ⟨isOpen, rfl, ?_⟩
        cases stopped : interruption.any fun written => written < notes.length with
        | true =>
            left
            simp [replaceAll, seen, may, stopped]
        | false =>
            right
            simp [replaceAll, seen, may, stopped]

/-! ## Every operation makes a move -/

theorem Interrupted.of_undisturbed {first second third : Store} {name : String}
    (early : Undisturbed first second) (late : Interrupted second name third) :
    Interrupted first name third where
  onDisk := late.onDisk.trans early.onDisk
  committed := late.committed.trans early.committed
  number := late.number.trans early.number
  writer := by rw [late.writer, early.number, early.committed]
  reading := fun other => (late.reading other).trans (early.reading other)
  indexedAt := fun other => (late.indexedAt other).trans (early.indexedAt other)

theorem Interrupted.then_undisturbed {first second third : Store} {name : String}
    (early : Interrupted first name second) (late : Undisturbed second third) :
    Interrupted first name third where
  onDisk := late.onDisk.trans early.onDisk
  committed := late.committed.trans early.committed
  number := late.number.trans early.number
  writer := late.writer.trans early.writer
  reading := fun other => (late.reading other).trans (early.reading other)
  indexedAt := fun other => (late.indexedAt other).trans (early.indexedAt other)

theorem Published.of_undisturbed {first second third : Store} {name : String} {written : Writer}
    (early : Undisturbed first second) (late : Published second name written third) :
    Published first name written third where
  onDisk := late.onDisk.trans early.onDisk
  committed := late.committed
  number := late.number
  writer := late.writer
  reading := by
    intro other
    rw [late.reading, early.reading]

theorem Undisturbed.writerFor {before after : Store} (quiet : Undisturbed before after) :
    after.writerFor = before.writerFor := by
  rw [Store.writerFor, Store.writerFor, quiet.writer, quiet.number, quiet.committed]

theorem Undisturbed.mayWrite {before after : Store} (quiet : Undisturbed before after)
    (name : String) : after.mayWrite name = before.mayWrite name := by
  rw [Store.mayWrite, Store.mayWrite, quiet.writer]

/-- What a rebuild leaves in the handle does not show in what it reads. -/
theorem published_updateHandle {before after : Store} {name : String} {written : Writer}
    (published : Published before name written after) {change : Handle -> Handle}
    (sameView : ∀ handle, (change handle).view = handle.view) :
    Published before name written (after.updateHandle name change) := by
  have fields := after.updateHandle_fields name change
  refine ⟨fields.1.trans published.onDisk, fields.2.1.trans published.committed,
    fields.2.2.1.trans published.number, fields.2.2.2.trans published.writer, ?_⟩
  intro other
  rw [fields.2.1, ← published.reading other, reading_updateHandle]
  by_cases same : other = name
  · rw [if_pos same, same, reading]
    congr 1
    exact funext sameView
  · rw [if_neg same]

theorem move_of_read {store : Store} {operation : Operation} {value : Type}
    (keeps : operation.request.keepsHandle = true)
    (onlyReads : operation.request.change? = none) (result : Except Fault value)
    (answer : value -> Answer) : Move store operation store (result.map answer) := by
  cases result with
  | error fault =>
      refine .refused rfl (.refl store) keeps ?_
      intro admitted
      have writes := admitted.writes
      rw [onlyReads] at writes
      cases writes
  | ok found => exact .answered rfl (.refl store) keeps onlyReads

theorem move_of_write {store : Store} (operation : Operation) {change : Writer -> Writer}
    (asked : operation.request.change? = some change)
    (heeds : operation.request.heedsToken = true)
    (goesOn : operation.request.isInterrupted = false) (kind path : String) :
    Move store operation
      (store.replacedBy
        (store.write operation.handle operation.cancelled kind path change)).1
      (store.replacedBy
        (store.write operation.handle operation.cancelled kind path change)).2 := by
  have writes : operation.request.change?.isSome := by
    rw [asked]
    rfl
  have stopped := Operation.isStopped_of_heedsToken heeds
  rcases store.write_error_or_ok operation.handle operation.cancelled kind path change with
    ⟨fault, failed, notAdmitted⟩ | ⟨written, live, isOpen, may⟩
  · rw [failed]
    refine .refused rfl (.refl store) (Request.keepsHandle_of_change? writes) ?_
    intro admitted
    exact notAdmitted ⟨stopped ▸ admitted.begins, admitted.isOpen, admitted.mayWrite⟩
  · rw [written]
    exact .published rfl ⟨stopped.trans live, writes, isOpen, may⟩ goesOn asked
      (published_commit isOpen _)

/-- The second half of a rebuild, after a first half that disturbed nothing. -/
theorem move_of_finishReindex {before begun : Store} (operation : Operation)
    {source : NoteSource} {interruption : Option Nat} {now : Time.Instant}
    (quiet : Undisturbed before begun) (begins : operation.isStopped = false)
    (keeps : operation.request.keepsHandle = true)
    (asked : operation.request.change? =
      source.toOption.map fun notes writer => writer.clear.add notes)
    (stops : operation.request.isInterrupted = source.toOption.any fun notes =>
      interruption.any fun written => written < notes.length) :
    Move before operation
      (begun.finishReindex operation.handle source interruption now).1
      ((begun.finishReindex operation.handle source interruption now).2.map fun _ => .done) := by
  have marked : ∀ (store : Store) (status : Status), Undisturbed store
      (store.updateHandle operation.handle fun handle => { handle with status := status }) :=
    fun store status => undisturbed_updateHandle store _ (fun _ => rfl) (fun _ => rfl)
  cases source with
  | error fault =>
      -- Without notes there is nothing to write, so such a rebuild was never admitted.
      refine .refused rfl (quiet.trans (marked begun _)) keeps ?_
      intro admitted
      have writes := admitted.writes
      rw [asked] at writes
      cases writes
  | ok notes =>
      have writes : operation.request.change?.isSome := by
        rw [asked]
        rfl
      rcases begun.replaceAll_cases operation.handle notes interruption with
        ⟨fault, failed, notAdmitted⟩ | ⟨isOpen, may, ⟨stopped, interrupted⟩ | ⟨goesOn, replaced⟩⟩
      · simp only [finishReindex, failed]
        refine .refused rfl (quiet.trans (marked begun _)) keeps ?_
        intro admitted
        apply notAdmitted
        rw [quiet.reading, quiet.mayWrite]
        exact ⟨admitted.isOpen, admitted.mayWrite⟩
      · rw [quiet.reading] at isOpen
        rw [quiet.mayWrite] at may
        have back : Interrupted begun operation.handle
            { begun with
              writer := some (operation.handle, .start begun.number begun.committed) } :=
          ⟨rfl, rfl, rfl, rfl, fun _ => rfl, fun _ => rfl⟩
        simp only [finishReindex, interrupted]
        exact .interrupted rfl ⟨begins, writes, isOpen, may⟩ (stops.trans stopped)
          (.of_undisturbed quiet (back.then_undisturbed (marked _ _)))
      · have written := published_commit isOpen (begun.writerFor.clear.add notes)
        rw [quiet.reading] at isOpen
        rw [quiet.mayWrite] at may
        rw [quiet.writerFor] at written
        simp only [finishReindex, replaced]
        refine .published rfl ⟨begins, writes, isOpen, may⟩ (stops.trans goesOn) asked
          (.of_undisturbed quiet ?_)
        rw [quiet.writerFor]
        exact published_updateHandle written fun _ => rfl

theorem beginReindex_error_or_ok (store : Store) (name : String) (cancelled : Bool) :
    (∃ fault, store.beginReindex name cancelled = .error fault ∧
        ¬(cancelled = false ∧ (store.reading name).isSome)) ∨
      ∃ begun, store.beginReindex name cancelled = .ok begun ∧ cancelled = false ∧
        Undisturbed store begun := by
  rcases store.view_error_or_ok name cancelled with
    ⟨fault, failed, notLive⟩ | ⟨contents, seen, live, reads⟩
  · left
    refine ⟨fault, ?_, notLive⟩
    simp only [beginReindex, failed]
    rfl
  · right
    refine ⟨store.updateHandle name fun handle => { handle with status := .indexing }, ?_, live,
      undisturbed_updateHandle store name (fun _ => rfl) (fun _ => rfl)⟩
    simp only [beginReindex, seen]
    rfl

theorem move_of_reindex {store : Store} {name : String} {cancelled : Bool}
    {source : Option NoteSource} {interruption : Option Nat} {now : Time.Instant} :
    Move store ⟨name, cancelled, .reindex source interruption now⟩
      (store.reindex name cancelled source interruption now).1
      ((store.reindex name cancelled source interruption now).2.map fun _ => .done) := by
  cases source with
  | none =>
      refine .refused rfl (.refl store) rfl ?_
      intro admitted
      cases admitted.writes
  | some source =>
      rcases store.beginReindex_error_or_ok name cancelled with
        ⟨fault, failed, notLive⟩ | ⟨begun, started, live, quiet⟩
      · simp only [reindex, failed]
        refine .refused rfl (.refl store) rfl ?_
        intro admitted
        have begins := admitted.begins
        rw [Operation.isStopped_of_heedsToken rfl] at begins
        exact notLive ⟨begins, admitted.isOpen⟩
      · simp only [reindex, started]
        apply move_of_finishReindex ⟨name, cancelled, _⟩ quiet
        · rw [Operation.isStopped, live, Bool.false_and]
        · rfl
        · cases source <;> rfl
        · cases source <;> rfl

/-- Whatever is asked of a store, it makes one of the six moves. -/
theorem perform_move [PatternEngine] (store : Store) (operation : Operation) :
    Move store operation (store.perform operation).1 (store.perform operation).2 := by
  rcases operation with ⟨name, cancelled, request⟩
  cases request with
  | «open» => exact .opened rfl rfl (store.opened_open name)
  | close => exact .shut rfl (.inl rfl) (store.shut_close name)
  | drop => exact .shut rfl (.inr rfl) (store.shut_drop name)
  | add note =>
      exact move_of_write ⟨name, cancelled, .add note⟩ rfl rfl rfl "add" note.path
  | remove path =>
      exact move_of_write ⟨name, cancelled, .remove path⟩ rfl rfl rfl "remove" path
  | get path => exact move_of_read rfl rfl _ Answer.note
  | find now options => exact move_of_read rfl rfl _ Answer.results
  | count now options => exact move_of_read rfl rfl _ Answer.number
  | stats => exact move_of_read rfl rfl _ Answer.stats
  | reindex source interruption now => exact move_of_reindex
  | beginReindex =>
      rcases store.beginReindex_error_or_ok name cancelled with
        ⟨fault, failed, _⟩ | ⟨begun, started, _, quiet⟩
      · simp only [perform, failed, replacedBy]
        refine .refused rfl (.refl store) rfl ?_
        intro admitted
        cases admitted.writes
      · simp only [perform, started, replacedBy]
        exact .answered rfl quiet rfl rfl
  | finishReindex source interruption now =>
      apply move_of_finishReindex ⟨name, cancelled, _⟩ (.refl store)
      · exact Bool.and_false cancelled
      · rfl
      · cases source <;> rfl
      · cases source <;> rfl

/-- An operation whose token is cancelled does nothing. -/
theorem perform_of_isStopped [PatternEngine] (store : Store) {operation : Operation}
    (stopped : operation.isStopped = true) :
    store.perform operation = (store, .error .cancelled) := by
  rcases operation with ⟨name, cancelled, request⟩
  rw [Operation.isStopped, Bool.and_eq_true] at stopped
  rcases stopped with ⟨rfl, heeds⟩
  cases request with
  | «open» | close | drop | finishReindex => cases heeds
  | reindex source =>
      cases source <;> rfl
  | add | remove | get | find | count | stats | beginReindex => rfl

end Store

end Index
end Commonplace
