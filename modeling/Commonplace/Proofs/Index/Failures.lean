import Commonplace.Proofs.Index.Runs

namespace Commonplace
namespace Index
namespace Store

/-!
# Operations that fail

An operation that fails may leave a trace in the status of its handle, and an interrupted rebuild
leaves its handle with a new writer.  Neither shows in any note.  For the writer this depends on the
past: it has to hold exactly the notes that were committed last, so that the next commit brings
nothing to light that was written before.
-/

/-- No writer holds anything but the notes that were committed last. -/
def NothingPending (store : Store) : Prop :=
  ∀ name writer, store.writer = some (name, writer) → writer.notes = store.committed.notes

/-- All that can be read of a store is as it was, and nothing is about to change it. -/
structure Intact (before after : Store) : Prop where
  committed : after.committed = before.committed
  number : after.number = before.number
  reading : ∀ name, after.reading name = before.reading name
  indexedAt : ∀ name, after.indexedAt name = before.indexedAt name
  nothingPending : after.NothingPending

theorem nothingPending_empty (onDisk : Bool) : (empty onDisk).NothingPending := by
  intro name writer held
  cases held

theorem Undisturbed.nothingPending {before after : Store} (quiet : Undisturbed before after)
    (settled : before.NothingPending) : after.NothingPending := by
  intro name writer held
  rw [quiet.writer] at held
  rw [quiet.committed]
  exact settled name writer held

theorem Interrupted.nothingPending {before after : Store} {name : String}
    (back : Interrupted before name after) : after.NothingPending := by
  intro other writer held
  rw [back.writer] at held
  cases held
  rw [back.committed]
  exact Writer.notes_start before.number before.committed

theorem Published.nothingPending {before after : Store} {name : String} {written : Writer}
    (published : Published before name written after) : after.NothingPending := by
  intro other writer held
  rw [published.writer] at held
  cases held
  rw [published.committed]
  rfl

/-- A writer that is still held when its handle comes or goes belongs to another handle. -/
theorem writer_of_filter {store : Store} {name other : String} {writer : Writer}
    (held : (store.writer.filter fun holder => holder.1 != name) = some (other, writer)) :
    store.writer = some (other, writer) ∧ other ≠ name := by
  rw [Option.filter_eq_some_iff] at held
  exact ⟨held.1, bne_iff_ne.mp held.2⟩

section Engine

variable [PatternEngine]

theorem nothingPending_perform (store : Store) (operation : Operation)
    (settled : store.NothingPending) : (store.perform operation).1.NothingPending := by
  cases store.perform_move operation with
  | answered gives quiet keeps onlyReads => exact quiet.nothingPending settled
  | refused gives quiet keeps notAdmitted => exact quiet.nothingPending settled
  | interrupted gives admitted stopped back => exact back.nothingPending
  | published gives admitted goesOn asked written => exact written.nothingPending
  | opened gives asked opened =>
      intro name writer held
      rw [opened.writer] at held
      rw [opened.committed]
      unfold lasting at held ⊢
      split at held
      · rename_i onDisk
        rw [if_pos onDisk]
        exact settled name writer (writer_of_filter held).1
      · cases held
  | shut gives asked shut =>
      intro name writer held
      rw [shut.writer] at held
      rw [shut.committed]
      exact settled name writer (writer_of_filter held).1

theorem nothingPending_run (onDisk : Bool) (history : List Operation) :
    ((empty onDisk).run history).NothingPending :=
  run_invariant NothingPending nothingPending_perform history (nothingPending_empty onDisk)

/-- An operation that fails leaves a store intact in which nothing was pending. -/
theorem intact_perform {store : Store} (settled : store.NothingPending) {operation : Operation}
    {fault : Fault} (failed : (store.perform operation).2 = .error fault) :
    Intact store (store.perform operation).1 := by
  cases store.perform_move operation with
  | refused gives quiet keeps notAdmitted =>
      exact ⟨quiet.committed, quiet.number, quiet.reading, quiet.indexedAt,
        quiet.nothingPending settled⟩
  | interrupted gives admitted stopped back =>
      exact ⟨back.committed, back.number, back.reading, back.indexedAt, back.nothingPending⟩
  | answered gives => rw [failed] at gives; cases gives
  | published gives => rw [failed] at gives; cases gives
  | opened gives => rw [failed] at gives; cases gives
  | shut gives => rw [failed] at gives; cases gives

/-- A source that fails makes the whole rebuild fail, whether it is one operation or two. -/
theorem perform_failing_source (store : Store) {operation : Operation} {fault : Fault}
    {interruption : Option Nat} {now : Time.Instant}
    (asked : operation.request = .reindex (some (.error fault)) interruption now ∨
      operation.request = .finishReindex (.error fault) interruption now) :
    ∃ reported, (store.perform operation).2 = .error reported := by
  rcases operation with ⟨name, cancelled, request⟩
  rcases asked with rfl | rfl
  · rcases store.beginReindex_error_or_ok name cancelled with
      ⟨reported, failed, _⟩ | ⟨begun, started, _, _⟩
    · refine ⟨reported, ?_⟩
      simp only [perform, reindex, failed]
      rfl
    · refine ⟨fault.wrap "reindex" "", ?_⟩
      simp only [perform, reindex, started]
      rfl
  · exact ⟨fault.wrap "reindex" "", rfl⟩

/-- In every state that operations can lead to, an operation that fails leaves what each handle
reads, what is committed and when each handle last rebuilt the store as they were.  A rebuild
fails whenever its source does.  A cancelled token is found before anything else is. -/
theorem failure_leaves_store_intact (onDisk : Bool) (history : List Operation)
    (operation : Operation) :
    let before := (empty onDisk).run history
    let outcome := before.perform operation
    (∀ fault, outcome.2 = .error fault → Intact before outcome.1) ∧
      (∀ fault interruption now,
        operation.request = .reindex (some (.error fault)) interruption now ∨
          operation.request = .finishReindex (.error fault) interruption now →
        (∃ reported, outcome.2 = .error reported) ∧ Intact before outcome.1) ∧
      (operation.cancelled = true → operation.request.heedsToken = true →
        outcome = (before, .error .cancelled)) := by
  intro before outcome
  have settled : before.NothingPending := nothingPending_run onDisk history
  refine ⟨?_, ?_, ?_⟩
  · intro fault failed
    exact intact_perform settled failed
  · intro fault interruption now asked
    rcases before.perform_failing_source asked with ⟨reported, failed⟩
    exact ⟨⟨reported, failed⟩, intact_perform settled failed⟩
  · intro cancelled heeds
    apply before.perform_of_isStopped
    rw [Operation.isStopped_of_heedsToken heeds]
    exact cancelled

end Engine

end Store

end Index
end Commonplace
