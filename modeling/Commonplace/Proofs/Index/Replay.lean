import Commonplace.Proofs.Index.Runs

namespace Commonplace
namespace Index

/-!
# What the successful writes of a run come to

A store is ready when its writer is at rest and holds what was committed last.  From a ready store
each successful write does to the committed notes what its request says, and leaves the store ready.
The one exception is a rebuild through a writer that is not settled.  Such a writer loses a note of
some source.
-/

namespace Request

/-- What a request makes of the committed notes of a store when it succeeds.  A store in memory
starts anew when it is opened. -/
def applied (onDisk : Bool) : Request -> List Note -> List Note
  | «open», notes => if onDisk then notes else []
  | add note, notes => (notes.filter fun other => !hasPath note.path other) ++ [note]
  | remove path, notes => notes.filter fun other => !hasPath path other
  | request, notes => request.replacement?.getD notes

theorem applied_of_replacement? {request : Request} {source : List Note}
    (replaces : request.replacement? = some source) (onDisk : Bool) (notes : List Note) :
    request.applied onDisk notes = source := by
  cases request with
  | reindex | finishReindex => simp only [applied, replaces, Option.getD_some]
  | «open» | close | drop | add | remove | get | find | count | stats | beginReindex =>
      cases replaces

theorem applied_of_change? {request : Request} (keeps : request.keepsHandle = true)
    (onlyReads : request.change? = none) (onDisk : Bool) (notes : List Note) :
    request.applied onDisk notes = notes := by
  cases request with
  | «open» | close | drop => cases keeps
  | add | remove => cases onlyReads
  | get | find | count | stats | beginReindex => rfl
  | reindex | finishReindex =>
      have replacesNothing := Option.map_eq_none_iff.mp onlyReads
      simp only [applied, replacesNothing, Option.getD_none]

/-- A write is an addition, a removal or a rebuild. -/
theorem change?_cases {request : Request} {change : Writer -> Writer}
    (asked : request.change? = some change) :
    (∃ note, request = .add note ∧
        change = fun writer => (writer.remove note.path).add [note]) ∨
      (∃ path, request = .remove path ∧ change = fun writer => writer.remove path) ∨
      ∃ source, request.replacement? = some source ∧
        change = fun writer => writer.clear.add source := by
  cases request with
  | «open» | close | drop | get | find | count | stats | beginReindex => cases asked
  | add note => exact .inl ⟨note, rfl, (Option.some.inj asked).symm⟩
  | remove path => exact .inr (.inl ⟨path, rfl, (Option.some.inj asked).symm⟩)
  | reindex | finishReindex =>
      rcases Option.map_eq_some_iff.mp asked with ⟨source, replaces, same⟩
      exact .inr (.inr ⟨source, replaces, same.symm⟩)

end Request

/-- What a write publishes from a writer at rest, which has to be settled for a rebuild. -/
theorem Writer.commit_of_change? {writer : Writer} (rest : writer.AtRest) {request : Request}
    {change : Writer -> Writer} (asked : request.change? = some change)
    (settled : request.replacement?.isSome → writer.Settled) (onDisk : Bool) :
    (change writer).commit.AtRest ∧
      (change writer).commit.notes = request.applied onDisk writer.notes := by
  rcases request.change?_cases asked with
    ⟨note, rfl, rfl⟩ | ⟨path, rfl, rfl⟩ | ⟨source, replaces, rfl⟩
  · exact ⟨atRest_commit_add rest note, notes_commit_add rest note⟩
  · exact ⟨atRest_commit_remove rest path, notes_commit_remove rest path⟩
  · have calm : writer.Settled := by
      apply settled
      rw [replaces]
      rfl
    refine ⟨atRest_commit_rebuild rest calm source, ?_⟩
    rw [notes_commit_rebuild calm, Request.applied_of_replacement? replaces]

namespace Store

section Outcomes

variable [PatternEngine]

/-- Whether an operation gets an answer. -/
def Succeeds (store : Store) (operation : Operation) : Prop :=
  ∃ answer, (store.perform operation).2 = .ok answer

instance (store : Store) (operation : Operation) : Decidable (store.Succeeds operation) :=
  match outcome : (store.perform operation).2 with
  | .ok answer => isTrue ⟨answer, outcome⟩
  | .error _ => isFalse fun succeeded => by
      rcases succeeded with ⟨answer, succeeded⟩
      rw [outcome] at succeeded
      cases succeeded

/-- A successful rebuild through a writer that is not settled. -/
def UnsettledRebuild (store : Store) (operation : Operation) : Prop :=
  operation.request.replacement?.isSome ∧ store.Succeeds operation ∧ ¬ store.writerFor.Settled

instance (store : Store) (operation : Operation) :
    Decidable (store.UnsettledRebuild operation) :=
  inferInstanceAs (Decidable (_ ∧ _ ∧ ¬ _))

/-- The requests of a run that got an answer. -/
def answered (store : Store) : List Operation -> List Request
  | [] => []
  | operation :: rest =>
      let (after, outcome) := store.perform operation
      match outcome with
      | .ok _ => operation.request :: after.answered rest
      | .error _ => after.answered rest

end Outcomes

/-- A store whose writer is at rest and holds what was committed last. -/
structure Ready (store : Store) : Prop where
  atRest : store.writerFor.AtRest
  notes_eq : store.writerFor.notes = store.committed.notes

theorem ready_of_unheld {store : Store} (unheld : store.writer = none) : store.Ready := by
  constructor
  · simp only [writerFor, unheld, Option.map_none, Option.getD_none]
    exact Writer.atRest_start _ _
  · simp only [writerFor, unheld, Option.map_none, Option.getD_none]
    exact Writer.notes_start _ _

theorem Undisturbed.ready {before after : Store} (quiet : Undisturbed before after)
    (ready : before.Ready) : after.Ready := by
  constructor
  · rw [quiet.writerFor]
    exact ready.atRest
  · rw [quiet.writerFor, quiet.committed]
    exact ready.notes_eq

theorem Interrupted.ready {before after : Store} {name : String}
    (back : Interrupted before name after) : after.Ready := by
  constructor
  · simp only [writerFor, back.writer, Option.map_some, Option.getD_some]
    exact Writer.atRest_start _ _
  · simp only [writerFor, back.writer, Option.map_some, Option.getD_some, back.committed]
    exact Writer.notes_start _ _

theorem Published.ready {before after : Store} {name : String} {written : Writer}
    (published : Published before name written after) (rest : written.commit.AtRest) :
    after.Ready := by
  constructor
  · simp only [writerFor, published.writer, Option.map_some, Option.getD_some]
    exact rest
  · simp only [writerFor, published.writer, Option.map_some, Option.getD_some,
      published.committed]
    rfl

/-- A handle that comes or goes takes its writer with it or leaves the writer of another. -/
theorem ready_of_filter {before after : Store} {name : String}
    (kept : after.writer = before.writer.filter fun holder => holder.1 != name)
    (committed : after.committed = before.committed) (number : after.number = before.number)
    (ready : before.Ready) : after.Ready := by
  cases held : after.writer with
  | none => exact ready_of_unheld held
  | some pair =>
      have earlier : before.writer = some pair := by
        rw [held] at kept
        exact (Option.filter_eq_some_iff.mp kept.symm).1
      have same : after.writerFor = before.writerFor := by
        rw [writerFor, writerFor, held, earlier, number, committed]
      constructor
      · rw [same]
        exact ready.atRest
      · rw [same, committed]
        exact ready.notes_eq

theorem ready_lasting {store : Store} (ready : store.Ready) : store.lasting.Ready := by
  unfold lasting
  split
  · exact ready
  · exact ready_of_unheld rfl

variable [PatternEngine]

/-- The settled writer that a successful rebuild needs. -/
theorem settled_of_not_unsettledRebuild {store : Store} {operation : Operation}
    (calm : ¬ store.UnsettledRebuild operation) (succeeded : store.Succeeds operation) :
    operation.request.replacement?.isSome → store.writerFor.Settled := by
  intro replaces
  by_contra unsettled
  exact calm ⟨replaces, succeeded, unsettled⟩

/-- What an operation leaves ready. -/
theorem ready_perform {store : Store} (ready : store.Ready) {operation : Operation}
    (calm : ¬ store.UnsettledRebuild operation) : (store.perform operation).1.Ready := by
  cases store.perform_move operation with
  | answered gives quiet => exact quiet.ready ready
  | refused gives quiet => exact quiet.ready ready
  | interrupted gives admitted stopped back =>
      -- The writer was started again from the last commit, whatever it had written.
      exact back.ready
  | published gives admitted goesOn asked written =>
      have settled := settled_of_not_unsettledRebuild calm ⟨_, gives⟩
      exact written.ready (Writer.commit_of_change? ready.atRest asked settled store.onDisk).1
  | opened gives asked opened =>
      exact ready_of_filter opened.writer opened.committed opened.number (ready_lasting ready)
  | shut gives asked shut => exact ready_of_filter shut.writer shut.committed shut.number ready

/-- What an operation that succeeds makes of the committed notes. -/
theorem notes_perform {store : Store} (ready : store.Ready) {operation : Operation}
    (calm : ¬ store.UnsettledRebuild operation) (succeeded : store.Succeeds operation) :
    (store.perform operation).1.committed.notes =
      operation.request.applied store.onDisk store.committed.notes := by
  cases store.perform_move operation with
  | answered gives quiet keeps onlyReads =>
      rw [quiet.committed, Request.applied_of_change? keeps onlyReads]
  | refused gives =>
      rcases succeeded with ⟨answer, succeeded⟩
      rw [gives] at succeeded
      cases succeeded
  | interrupted gives =>
      rcases succeeded with ⟨answer, succeeded⟩
      rw [gives] at succeeded
      cases succeeded
  | published gives admitted goesOn asked written =>
      have settled := settled_of_not_unsettledRebuild calm ⟨_, gives⟩
      have published := Writer.commit_of_change? ready.atRest asked settled store.onDisk
      rw [written.committed, ← ready.notes_eq]
      exact published.2
  | opened gives asked opened =>
      rw [opened.committed, asked]
      unfold lasting
      split
      · rename_i onDisk
        simp only [Request.applied, onDisk, if_true]
      · rename_i inMemory
        simp only [Request.applied, inMemory]
        rfl
  | shut gives asked shut =>
      rw [shut.committed]
      rcases asked with asked | asked <;> rw [asked] <;> rfl

/-- An operation that fails does nothing to the committed notes. -/
theorem committed_perform_of_error {store : Store} {operation : Operation} {fault : Fault}
    (failed : (store.perform operation).2 = .error fault) :
    (store.perform operation).1.committed = store.committed := by
  cases store.perform_move operation with
  | refused gives quiet => exact quiet.committed
  | interrupted gives admitted stopped back => exact back.committed
  | answered gives => rw [failed] at gives; cases gives
  | published gives => rw [failed] at gives; cases gives
  | opened gives => rw [failed] at gives; cases gives
  | shut gives => rw [failed] at gives; cases gives

/-- After a run without an unsettled rebuild, the store is ready, and its notes are what the
requests that were answered made of the first ones, one after another. -/
theorem run_applies {store : Store} (ready : store.Ready) {history : List Operation}
    (calm : Never UnsettledRebuild store history) :
    (store.run history).Ready ∧
      (store.run history).committed.notes = (store.answered history).foldl
        (fun notes request => request.applied store.onDisk notes) store.committed.notes := by
  induction history generalizing store with
  | nil => exact ⟨ready, rfl⟩
  | cons operation rest inductionHypothesis =>
      have later := inductionHypothesis (ready_perform ready calm.1) calm.2
      refine ⟨later.1, ?_⟩
      rw [run_cons, later.2, onDisk_perform]
      cases outcome : (store.perform operation).2 with
      | ok answer =>
          rw [notes_perform ready calm.1 ⟨answer, outcome⟩]
          simp only [answered, outcome, List.foldl_cons]
      | error fault =>
          rw [committed_perform_of_error outcome]
          simp only [answered, outcome]

/-! ## A rebuild that loses a note -/

/-- An operation that gets the writer and is not told to stop succeeds. -/
theorem published_of_admits {store : Store} {operation : Operation}
    (admitted : store.Admits operation) (goesOn : operation.request.isInterrupted = false) :
    ∃ change, operation.request.change? = some change ∧
      (store.perform operation).2 = .ok .done ∧
      Published store operation.handle (change store.writerFor) (store.perform operation).1 := by
  have keeps := Request.keepsHandle_of_change? admitted.writes
  cases store.perform_move operation with
  | answered gives quiet keeps onlyReads =>
      have writes := admitted.writes
      rw [onlyReads] at writes
      cases writes
  | refused gives quiet keeps notAdmitted => exact absurd admitted notAdmitted
  | interrupted gives admitted stopped =>
      rw [goesOn] at stopped
      cases stopped
  | published gives admitted goesOn asked written => exact ⟨_, asked, gives, written⟩
  | opened gives asked =>
      rw [asked] at keeps
      cases keeps
  | shut gives asked =>
      rcases asked with asked | asked <;> rw [asked] at keeps <;> cases keeps

/-- A handle that may rebuild a store through a writer that is not settled loses a note of some
source, although its paths are distinct. -/
theorem exists_rebuild_loses {store : Store} {name : String} (isOpen : (store.reading name).isSome)
    (may : store.mayWrite name) {removal : Removal} (member : removal ∈ store.writerFor.ahead)
    (newer : store.writerFor.first < removal.number) (short : Indexable removal.path)
    (now : Time.Instant) :
    ∃ source note, (source.map Note.path).Nodup ∧ note ∈ source ∧
      store.Succeeds ⟨name, false, .reindex (some (.ok source)) none now⟩ ∧
      ∀ other ∈ (store.perform
          ⟨name, false, .reindex (some (.ok source)) none now⟩).1.committed.notes,
        other.path ≠ note.path := by
  rcases Writer.exists_source_lost member newer with ⟨source, distinct, inSource, lost⟩
  have admitted : store.Admits ⟨name, false, .reindex (some (.ok source)) none now⟩ :=
    ⟨rfl, rfl, isOpen, may⟩
  rcases published_of_admits admitted rfl with ⟨change, asked, gives, written⟩
  refine ⟨source, Note.ofPath removal.path, distinct, inSource, ⟨_, gives⟩, ?_⟩
  intro other kept same
  cases asked
  rw [written.committed] at kept
  have notFound := lost other kept
  rw [hasPath_of_indexable short] at notFound
  exact beq_eq_false_iff_ne.mp notFound same

end Store

end Index
end Commonplace
