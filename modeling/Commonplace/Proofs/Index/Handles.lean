import Commonplace.Proofs.Index.Replay

namespace Commonplace
namespace Index

/-!
# Several handles of one store

Handles of a store on disk take turns at writing.  Who holds the writer and what each handle reads
follow from the order of the operations alone.  What is committed is the outcome of the successful
writes, one after another, as long as no rebuild gets a writer with a removal that reaches into it.
-/

namespace Store

/-! ## Who holds the writer -/

/-- An operation through a handle that gets the writer. -/
def TakesWriter (name : String) (store : Store) (operation : Operation) : Prop :=
  operation.handle = name ∧ store.Admits operation

/-- An operation that opens a handle anew, closes it or drops it. -/
def EndsHandle (name : String) (_ : Store) (operation : Operation) : Prop :=
  operation.handle = name ∧ operation.request.keepsHandle = false

theorem holder_eq_some_iff (store : Store) (name : String) :
    store.holder = some name ↔ ∃ writer, store.writer = some (name, writer) := by
  simp [holder]

/-- A handle that holds the writer is the only one that may write. -/
theorem eq_of_mayWrite {store : Store} {name other : String} (held : store.holder = some name)
    (may : store.mayWrite other = true) : other = name := by
  rcases (holder_eq_some_iff store name).mp held with ⟨writer, kept⟩
  rw [mayWrite, kept] at may
  exact (beq_iff_eq.mp may).symm

theorem not_mayWrite {store : Store} {name other : String} (held : store.holder = some name)
    (apart : other ≠ name) : store.mayWrite other = false := by
  rw [Bool.eq_false_iff]
  intro may
  exact apart (eq_of_mayWrite held may)

theorem not_admits_of_change? {store : Store} {operation : Operation}
    (onlyReads : operation.request.change? = none) : ¬ store.Admits operation := by
  intro admitted
  have writes := admitted.writes
  rw [onlyReads] at writes
  cases writes

theorem admits_keepsHandle {store : Store} {operation : Operation}
    (admitted : store.Admits operation) : operation.request.keepsHandle = true :=
  Request.keepsHandle_of_change? admitted.writes

section Holder

variable {before after : Store} {operation : Operation} {name : String}

theorem holder_of_undisturbed (quiet : Undisturbed before after)
    (keeps : operation.request.keepsHandle = true) (notAdmitted : ¬ before.Admits operation) :
    after.holder = some name ↔
      (before.holder = some name ∧ ¬ EndsHandle name before operation) ∨
        TakesWriter name before operation := by
  have same : after.holder = before.holder := congrArg (Option.map Prod.fst) quiet.writer
  rw [same]
  constructor
  · intro held
    left
    refine ⟨held, ?_⟩
    rintro ⟨_, ended⟩
    rw [keeps] at ended
    cases ended
  · rintro (⟨held, _⟩ | ⟨_, admitted⟩)
    · exact held
    · exact absurd admitted notAdmitted

theorem holder_of_admitted (admitted : before.Admits operation) {writer : Writer}
    (kept : after.writer = some (operation.handle, writer)) :
    after.holder = some name ↔
      (before.holder = some name ∧ ¬ EndsHandle name before operation) ∨
        TakesWriter name before operation := by
  have held : after.holder = some operation.handle := by
    rw [holder, kept]
    rfl
  rw [held, Option.some.injEq]
  constructor
  · intro same
    exact .inr ⟨same, admitted⟩
  · rintro (⟨earlier, _⟩ | ⟨same, _⟩)
    · exact eq_of_mayWrite earlier admitted.mayWrite
    · exact same

theorem holder_of_ended (ended : operation.request.keepsHandle = false)
    (kept : after.writer = before.writer.filter fun holder => holder.1 != operation.handle) :
    after.holder = some name ↔
      (before.holder = some name ∧ ¬ EndsHandle name before operation) ∨
        TakesWriter name before operation := by
  have notTaken : ¬ TakesWriter name before operation := by
    rintro ⟨_, admitted⟩
    have keeps := admits_keepsHandle admitted
    rw [ended] at keeps
    cases keeps
  simp only [holder_eq_some_iff, kept, Option.filter_eq_some_iff, bne_iff_ne, notTaken, or_false]
  constructor
  · rintro ⟨writer, earlier, apart⟩
    refine ⟨⟨writer, earlier⟩, ?_⟩
    rintro ⟨same, _⟩
    exact apart same.symm
  · rintro ⟨⟨writer, earlier⟩, notEnded⟩
    refine ⟨writer, earlier, ?_⟩
    intro same
    exact notEnded ⟨same.symm, ended⟩

end Holder

section Engine

variable [PatternEngine]

/-- A handle holds the writer after an operation when the operation gave it to the handle, or when
the handle had it and was left open. -/
theorem holder_perform {store : Store} (onDisk : store.onDisk = true) (operation : Operation)
    (name : String) :
    (store.perform operation).1.holder = some name ↔
      (store.holder = some name ∧ ¬ EndsHandle name store operation) ∨
        TakesWriter name store operation := by
  cases store.perform_move operation with
  | answered gives quiet keeps onlyReads =>
      exact holder_of_undisturbed quiet keeps (not_admits_of_change? onlyReads)
  | refused gives quiet keeps notAdmitted => exact holder_of_undisturbed quiet keeps notAdmitted
  | interrupted gives admitted stopped back => exact holder_of_admitted admitted back.writer
  | published gives admitted goesOn asked written =>
      exact holder_of_admitted admitted written.writer
  | opened gives asked opened =>
      have kept := opened.writer
      rw [lasting_of_onDisk onDisk] at kept
      apply holder_of_ended _ kept
      rw [asked]
      rfl
  | shut gives asked shut =>
      apply holder_of_ended _ shut.writer
      rcases asked with asked | asked <;> rw [asked] <;> rfl

/-- A handle holds the writer just when it took it and was neither opened, closed nor dropped
since. -/
theorem holder_run (history : List Operation) (name : String) :
    ((empty true).run history).holder = some name ↔
      Since (TakesWriter name) (EndsHandle name) (empty true) history := by
  rw [run_iff_since (fun store => store.onDisk = true) (fun store => store.holder = some name)
    (TakesWriter name) (EndsHandle name)
    (fun store operation onDisk => (onDisk_perform store operation).trans onDisk)
    (fun store operation onDisk => holder_perform onDisk operation name) history rfl]
  constructor
  · rintro (⟨held, _⟩ | since)
    · cases held
    · exact since
  · exact .inr

/-! ## What a handle reads -/

/-- An operation after which a handle reads what is then committed: it opened the handle, or was a
successful write of the handle. -/
def Refreshes (name : String) (store : Store) (operation : Operation) : Prop :=
  operation.handle = name ∧
    (operation.request = .open ∨
      (operation.request.change?.isSome ∧ store.Succeeds operation))

/-- An operation after which a handle does not read what it read before. -/
def EndsReading (name : String) (store : Store) (operation : Operation) : Prop :=
  EndsHandle name store operation ∨ Refreshes name store operation

/-- An operation of a handle that makes it read certain contents. -/
def Shows (name : String) (contents : Contents) (store : Store) (operation : Operation) : Prop :=
  Refreshes name store operation ∧ (store.perform operation).1.committed = contents

theorem not_refreshes_of_change? {store : Store} {operation : Operation} {name : String}
    (keeps : operation.request.keepsHandle = true) (onlyReads : operation.request.change? = none) :
    ¬ Refreshes name store operation := by
  rintro ⟨_, opens | ⟨writes, _⟩⟩
  · rw [opens] at keeps
    cases keeps
  · rw [onlyReads] at writes
    cases writes

theorem not_refreshes_of_error {store : Store} {operation : Operation} {name : String}
    {fault : Fault} (keeps : operation.request.keepsHandle = true)
    (failed : (store.perform operation).2 = .error fault) : ¬ Refreshes name store operation := by
  rintro ⟨_, opens | ⟨_, answer, succeeded⟩⟩
  · rw [opens] at keeps
    cases keeps
  · rw [failed] at succeeded
    cases succeeded

end Engine

theorem not_endsHandle {store : Store} {operation : Operation} {name : String}
    (keeps : operation.request.keepsHandle = true) : ¬ EndsHandle name store operation := by
  rintro ⟨_, ended⟩
  rw [keeps] at ended
  cases ended

section Reading

variable [PatternEngine] {store : Store} {operation : Operation} {name : String}
  {contents : Contents}

/-- What a handle reads is unchanged by an operation that does not refresh it. -/
theorem reading_of_same (same : (store.perform operation).1.reading name = store.reading name)
    (notEnded : ¬ EndsHandle name store operation) (notShown : ¬ Refreshes name store operation) :
    (store.perform operation).1.reading name = some contents ↔
      (store.reading name = some contents ∧ ¬ EndsReading name store operation) ∨
        Shows name contents store operation := by
  rw [same]
  constructor
  · intro reads
    exact .inl ⟨reads, fun ended => ended.elim notEnded notShown⟩
  · rintro (⟨reads, _⟩ | ⟨shown, _⟩)
    · exact reads
    · exact absurd shown notShown

/-- A handle that an operation refreshed reads what is committed. -/
theorem reading_of_refreshed (shown : Refreshes name store operation)
    (reads : (store.perform operation).1.reading name =
      some (store.perform operation).1.committed) :
    (store.perform operation).1.reading name = some contents ↔
      (store.reading name = some contents ∧ ¬ EndsReading name store operation) ∨
        Shows name contents store operation := by
  rw [reads, Option.some.injEq]
  constructor
  · intro same
    exact .inr ⟨shown, same⟩
  · rintro (⟨_, notEnded⟩ | ⟨_, same⟩)
    · exact absurd (.inr shown) notEnded
    · exact same

end Reading

/-- What a handle reads after an operation is what it read before, unless the operation refreshed or
ended it. -/
theorem reading_perform [PatternEngine] (store : Store) (operation : Operation) (name : String)
    (contents : Contents) :
    (store.perform operation).1.reading name = some contents ↔
      (store.reading name = some contents ∧ ¬ EndsReading name store operation) ∨
        Shows name contents store operation := by
  cases store.perform_move operation with
  | answered gives quiet keeps onlyReads =>
      exact reading_of_same (quiet.reading name) (not_endsHandle keeps)
        (not_refreshes_of_change? keeps onlyReads)
  | refused gives quiet keeps notAdmitted =>
      exact reading_of_same (quiet.reading name) (not_endsHandle keeps)
        (not_refreshes_of_error keeps gives)
  | interrupted gives admitted stopped back =>
      have keeps := admits_keepsHandle admitted
      exact reading_of_same (back.reading name) (not_endsHandle keeps)
        (not_refreshes_of_error keeps gives)
  | published gives admitted goesOn asked written =>
      -- A commit refreshes the handle that made it and no other.
      have reads := written.reading name
      by_cases same : name = operation.handle
      · rw [if_pos same] at reads
        exact reading_of_refreshed ⟨same.symm, .inr ⟨admitted.writes, _, gives⟩⟩ reads
      · rw [if_neg same] at reads
        exact reading_of_same reads (fun ended => same ended.1.symm)
          (fun shown => same shown.1.symm)
  | opened gives asked opened =>
      have reads := opened.reading name
      by_cases same : name = operation.handle
      · rw [if_pos same] at reads
        exact reading_of_refreshed ⟨same.symm, .inl asked⟩ reads
      · rw [if_neg same] at reads
        exact reading_of_same reads (fun ended => same ended.1.symm)
          (fun shown => same shown.1.symm)
  | shut gives asked shut =>
      have reads := shut.reading name
      have ended : operation.request.keepsHandle = false := by
        rcases asked with asked | asked <;> rw [asked] <;> rfl
      have notShown : ¬ Refreshes name store operation := by
        rintro ⟨_, opens | ⟨writes, _⟩⟩
        · rcases asked with asked | asked <;> rw [asked] at opens <;> cases opens
        · have keeps := Request.keepsHandle_of_change? writes
          rw [ended] at keeps
          cases keeps
      by_cases same : name = operation.handle
      · rw [if_pos same] at reads
        rw [reads]
        constructor
        · intro absent
          cases absent
        · rintro (⟨_, notEnded⟩ | ⟨shown, _⟩)
          · exact absurd (.inl ⟨same.symm, ended⟩) notEnded
          · exact absurd shown notShown
      · rw [if_neg same] at reads
        exact reading_of_same reads (fun ended => same ended.1.symm) notShown

/-- A handle reads what was committed when it was opened or last wrote itself, whichever came
later. -/
theorem reading_run [PatternEngine] (history : List Operation) (name : String)
    (contents : Contents) :
    ((empty true).run history).reading name = some contents ↔
      Since (Shows name contents) (EndsReading name) (empty true) history := by
  rw [run_iff_since (fun _ => True) (fun store => store.reading name = some contents)
    (Shows name contents) (EndsReading name) (fun _ _ _ => trivial)
    (fun store operation _ => reading_perform store operation name contents) history trivial]
  constructor
  · rintro (⟨reads, _⟩ | since)
    · cases reads
    · exact since
  · exact .inr

/-! ## What is committed -/

theorem finishReindex_locked {store : Store} {name : String}
    (isOpen : (store.reading name).isSome) (may : store.mayWrite name = false) (notes : List Note)
    (interruption : Option Nat) (now : Time.Instant) :
    (store.finishReindex name (.ok notes) interruption now).2 =
      .error ((Fault.locked Fault.heldLock).wrap "reindex" "") := by
  rcases Option.isSome_iff_exists.mp isOpen with ⟨contents, reads⟩
  have seen := view_of_reading reads
  have refused : store.replaceAll name notes interruption =
      (store, .error (.locked Fault.heldLock)) := by
    simp [replaceAll, seen, may]
  simp only [finishReindex, refused]

theorem write_locked {store : Store} {name : String} {contents : Contents}
    (reads : store.reading name = some contents) (may : store.mayWrite name = false)
    (kind path : String) (change : Writer -> Writer) :
    store.write name false kind path change =
      .error ((Fault.locked Fault.heldLock).wrap kind path) := by
  rw [write, view_of_reading reads, may]
  rfl

section Engine

variable [PatternEngine]

/-- A write that finds the writer in the hands of another handle. -/
theorem perform_locked {store : Store} {operation : Operation} {other : String}
    (held : store.holder = some other) (apart : operation.handle ≠ other)
    (writes : operation.request.change?.isSome) (begins : operation.isStopped = false)
    (isOpen : (store.reading operation.handle).isSome) :
    ∃ fault, (store.perform operation).2 = .error fault ∧
      fault.root = .locked Fault.heldLock := by
  have may := not_mayWrite held apart
  rcases operation with ⟨name, cancelled, request⟩
  rcases Option.isSome_iff_exists.mp isOpen with ⟨contents, reads⟩
  have wrapped : ∀ kind path : String,
      ((Fault.locked Fault.heldLock).wrap kind path).root = .locked Fault.heldLock :=
    fun kind path => rfl
  have live : request.heedsToken = true → cancelled = false :=
    fun heeds => (Operation.isStopped_of_heedsToken heeds).symm.trans begins
  cases request with
  | «open» | close | drop | get | find | count | stats | beginReindex => cases writes
  | add note =>
      refine ⟨_, ?_, wrapped "add" note.path⟩
      simp only [perform, add, live rfl, write_locked reads may]
      rfl
  | remove path =>
      refine ⟨_, ?_, wrapped "remove" path⟩
      simp only [perform, remove, live rfl, write_locked reads may]
      rfl
  | reindex source interruption now =>
      rcases source with _ | _ | notes
      · cases writes
      · cases writes
      · refine ⟨_, ?_, wrapped "reindex" ""⟩
        rcases store.beginReindex_error_or_ok name cancelled with
          ⟨fault, failed, notLive⟩ | ⟨begun, started, _, quiet⟩
        · exact absurd ⟨live rfl, isOpen⟩ notLive
        · rw [← quiet.reading] at isOpen
          rw [← quiet.mayWrite] at may
          simp only [perform, reindex, started, finishReindex_locked isOpen may]
          rfl
  | finishReindex source interruption now =>
      rcases source with _ | notes
      · cases writes
      · refine ⟨_, ?_, wrapped "reindex" ""⟩
        simp only [perform, finishReindex_locked isOpen may]
        rfl

/-- Such a write changes nothing that any handle reads. -/
theorem undisturbed_of_locked {store : Store} {operation : Operation} {other : String}
    (held : store.holder = some other) (apart : operation.handle ≠ other) {fault : Fault}
    (failed : (store.perform operation).2 = .error fault) :
    Undisturbed store (store.perform operation).1 := by
  cases store.perform_move operation with
  | refused gives quiet => exact quiet
  | interrupted gives admitted => exact absurd (eq_of_mayWrite held admitted.mayWrite) apart
  | answered gives => rw [failed] at gives; cases gives
  | published gives => rw [failed] at gives; cases gives
  | opened gives => rw [failed] at gives; cases gives
  | shut gives => rw [failed] at gives; cases gives

/-- Handles of a store on disk, in any order of operations.

A handle holds the writer just when it took it and was not opened, closed or dropped since, and
meanwhile the writes of all others fail and disturb nothing.  A handle reads what was committed when
it was opened or last wrote.  The committed notes are what the successful writes come to, in their
order, as long as no rebuild succeeds through a writer that is not settled.  Where a handle may
write through a writer with a removal newer than its first number, some source loses a note. -/
theorem handles_share_store (history : List Operation) :
    let store := (empty true).run history
    (∀ name, store.holder = some name ↔
        Since (TakesWriter name) (EndsHandle name) (empty true) history) ∧
      (∀ operation other, store.holder = some other → operation.handle ≠ other →
        operation.request.change?.isSome → operation.isStopped = false →
        (store.reading operation.handle).isSome →
        (∃ fault, (store.perform operation).2 = .error fault ∧
            fault.root = .locked Fault.heldLock) ∧
          Undisturbed store (store.perform operation).1) ∧
      (∀ name contents, store.reading name = some contents ↔
        Since (Shows name contents) (EndsReading name) (empty true) history) ∧
      (Never UnsettledRebuild (empty true) history →
        store.committed.notes = ((empty true).answered history).foldl
          (fun notes request => request.applied true notes) []) ∧
      ∀ name removal now, (store.reading name).isSome → store.mayWrite name →
        removal ∈ store.writerFor.ahead → store.writerFor.first < removal.number →
        Indexable removal.path →
        ∃ source note, (source.map Note.path).Nodup ∧ note ∈ source ∧
          store.Succeeds ⟨name, false, .reindex (some (.ok source)) none now⟩ ∧
          ∀ other ∈ (store.perform
              ⟨name, false, .reindex (some (.ok source)) none now⟩).1.committed.notes,
            other.path ≠ note.path := by
  intro store
  refine ⟨holder_run history, ?_, reading_run history, ?_, ?_⟩
  · intro operation other held apart writes begins isOpen
    rcases perform_locked held apart writes begins isOpen with ⟨fault, failed, locked⟩
    exact ⟨⟨fault, failed, locked⟩, undisturbed_of_locked held apart failed⟩
  · intro calm
    exact (run_applies (ready_of_unheld rfl) calm).2
  · intro name removal now isOpen may member newer short
    exact exists_rebuild_loses isOpen may member newer short now

end Engine

open scoped PatternEngine

/-- A removal in front of a rebuild holds up the next one: here `a` stays although it was removed,
and the handle that writes next commits it again. -/
theorem removal_held_up_by_rebuild :
    let history : List Operation :=
      [⟨"1", false, .open⟩, ⟨"0", false, .open⟩, ⟨"0", false, .add (.ofPath "a")⟩,
        ⟨"0", false, .add (.ofPath "b")⟩, ⟨"0", false, .remove "b"⟩,
        ⟨"0", false, .reindex (some (.ok [.ofPath "x.md", .ofPath "a"])) none default⟩,
        ⟨"0", false, .remove "a"⟩, ⟨"0", false, .close⟩, ⟨"1", false, .add (.ofPath "c")⟩]
    ((empty true).run history).committed.notes.map Note.path = ["x.md", "a", "c"] ∧
      (((empty true).answered history).foldl
        (fun notes request => request.applied true notes) []).map Note.path = ["x.md", "c"] := by
  decide +kernel

end Store

end Index
end Commonplace
