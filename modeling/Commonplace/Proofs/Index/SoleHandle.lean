import Commonplace.Proofs.Index.Catalogue

namespace Commonplace
namespace Index
namespace Store

/-!
# A store with one handle

A handle that nobody else writes beside may always write, and reads what is committed as long as it
is open.  So all that it answers is known from the catalogue of its past.
-/

/-! ## The catalogue of a run -/

/-- The catalogue that the answered requests of a run leave behind. -/
def catalogue [PatternEngine] (store : Store) (history : List Operation) : Catalogue :=
  (store.answered history).foldl
    (fun catalogue request => request.entered store.onDisk catalogue) ∅

theorem mem_answered [PatternEngine] {store : Store} {history : List Operation} {request : Request}
    (member : request ∈ store.answered history) :
    ∃ operation ∈ history, operation.request = request := by
  induction history generalizing store with
  | nil => cases member
  | cons operation rest inductionHypothesis =>
      simp only [answered] at member
      split at member
      · rcases List.mem_cons.mp member with rfl | later
        · exact ⟨operation, List.mem_cons_self, rfl⟩
        · rcases inductionHypothesis later with ⟨other, otherMember, same⟩
          exact ⟨other, List.mem_cons_of_mem _ otherMember, same⟩
      · rcases inductionHypothesis member with ⟨other, otherMember, same⟩
        exact ⟨other, List.mem_cons_of_mem _ otherMember, same⟩

theorem represents_foldl {requests : List Request}
    (proper : ∀ request ∈ requests, request.IsProper) (onDisk : Bool) {notes : List Note}
    {catalogue : Catalogue} (represents : Represents notes catalogue) :
    Represents (requests.foldl (fun notes request => request.applied onDisk notes) notes)
      (requests.foldl (fun catalogue request => request.entered onDisk catalogue) catalogue) := by
  induction requests generalizing notes catalogue with
  | nil => exact represents
  | cons request rest inductionHypothesis =>
      have properRest : ∀ other ∈ rest, other.IsProper :=
        fun other member => proper other (List.mem_cons_of_mem _ member)
      exact inductionHypothesis properRest
        (represents_applied represents (proper request List.mem_cons_self) onDisk)

/-- The committed notes of a run and its catalogue. -/
theorem represents_run [PatternEngine] {onDisk : Bool} {history : List Operation}
    (proper : ∀ operation ∈ history, operation.request.IsProper)
    (calm : Never UnsettledRebuild (empty onDisk) history) :
    Represents ((empty onDisk).run history).committed.notes
      ((empty onDisk).catalogue history) := by
  rw [(run_applies (ready_of_unheld rfl) calm).2]
  apply represents_foldl _ _ represents_empty
  intro request member
  rcases mem_answered member with ⟨operation, inHistory, rfl⟩
  exact proper operation inHistory

/-! ## The handle -/

/-- A store beside whose handle nobody else writes. -/
structure Sole (name : String) (store : Store) : Prop where
  mayWrite : store.mayWrite name = true
  fresh : ∀ contents, store.reading name = some contents → contents = store.committed

theorem sole_empty (onDisk : Bool) (name : String) : Sole name (empty onDisk) where
  mayWrite := rfl
  fresh := by
    intro contents reads
    cases reads

theorem mayWrite_of_writer {store : Store} {name : String} {writer : Writer}
    (held : store.writer = some (name, writer)) : store.mayWrite name = true := by
  rw [mayWrite, held]
  exact beq_self_eq_true name

theorem mayWrite_of_filter {before after : Store} {name : String}
    (kept : after.writer = before.writer.filter fun holder => holder.1 != name)
    (may : before.mayWrite name = true) : after.mayWrite name = true := by
  rw [mayWrite, kept]
  rw [mayWrite] at may
  cases held : before.writer with
  | none => rfl
  | some pair =>
      rw [held] at may
      have own : pair.1 = name := beq_iff_eq.mp may
      simp [own]

theorem mayWrite_lasting {store : Store} {name : String} (may : store.mayWrite name = true) :
    store.lasting.mayWrite name = true := by
  unfold lasting
  split
  · exact may
  · rfl

section Engine

variable [PatternEngine]

theorem sole_perform {name : String} {store : Store} (sole : Sole name store)
    {operation : Operation} (own : operation.handle = name) :
    Sole name (store.perform operation).1 := by
  cases store.perform_move operation with
  | answered gives quiet =>
      refine ⟨(quiet.mayWrite name).trans sole.mayWrite, ?_⟩
      rw [quiet.reading, quiet.committed]
      exact sole.fresh
  | refused gives quiet =>
      refine ⟨(quiet.mayWrite name).trans sole.mayWrite, ?_⟩
      rw [quiet.reading, quiet.committed]
      exact sole.fresh
  | interrupted gives admitted stopped back =>
      -- The writer starts again, and the handle still reads the last commit.
      rw [own] at back
      refine ⟨mayWrite_of_writer back.writer, ?_⟩
      rw [back.reading, back.committed]
      exact sole.fresh
  | published gives admitted goesOn asked written =>
      rw [own] at written
      refine ⟨mayWrite_of_writer written.writer, ?_⟩
      rw [written.reading, if_pos rfl]
      intro contents reads
      exact (Option.some.inj reads).symm
  | opened gives asked opened =>
      -- What is committed may be gone with an older handle, but the new one reads what is left.
      rw [own] at opened
      refine ⟨mayWrite_of_filter opened.writer (mayWrite_lasting sole.mayWrite), ?_⟩
      rw [opened.reading, if_pos rfl]
      intro contents reads
      exact (Option.some.inj reads).symm
  | shut gives asked shut =>
      rw [own] at shut
      refine ⟨mayWrite_of_filter shut.writer sole.mayWrite, ?_⟩
      rw [shut.reading, if_pos rfl]
      intro contents reads
      cases reads

theorem sole_run {name : String} {history : List Operation}
    (own : ∀ operation ∈ history, operation.handle = name) {store : Store}
    (sole : Sole name store) : Sole name (store.run history) := by
  induction history generalizing store with
  | nil => exact sole
  | cons operation rest inductionHypothesis =>
      exact inductionHypothesis (fun other member => own other (List.mem_cons_of_mem _ member))
        (sole_perform sole (own operation List.mem_cons_self))

end Engine

/-! ## Open and closed -/

/-- An operation that opens a handle. -/
def Opens (name : String) (_ : Store) (operation : Operation) : Prop :=
  operation.handle = name ∧ operation.request = .open

/-- An operation that closes or drops a handle. -/
def Shuts (name : String) (_ : Store) (operation : Operation) : Prop :=
  operation.handle = name ∧ (operation.request = .close ∨ operation.request = .drop)

theorem not_shuts_of_keepsHandle {store : Store} {operation : Operation} {name : String}
    (keeps : operation.request.keepsHandle = true) : ¬ Shuts name store operation := by
  rintro ⟨_, asked | asked⟩ <;> rw [asked] at keeps <;> cases keeps

theorem not_opens_of_keepsHandle {store : Store} {operation : Operation} {name : String}
    (keeps : operation.request.keepsHandle = true) : ¬ Opens name store operation := by
  rintro ⟨_, asked⟩
  rw [asked] at keeps
  cases keeps

theorem isOpen_of_same {before after : Store} {operation : Operation} {name : String}
    (same : (after.reading name).isSome = (before.reading name).isSome)
    (notShut : ¬ Shuts name before operation) (notOpened : ¬ Opens name before operation) :
    (after.reading name).isSome ↔
      ((before.reading name).isSome ∧ ¬ Shuts name before operation) ∨
        Opens name before operation := by
  rw [same]
  tauto

/-- An operation that keeps all handles open or closed. -/
theorem isOpen_of_keepsHandle {before after : Store} {operation : Operation} {name : String}
    (same : (after.reading name).isSome = (before.reading name).isSome)
    (keeps : operation.request.keepsHandle = true) :
    (after.reading name).isSome ↔
      ((before.reading name).isSome ∧ ¬ Shuts name before operation) ∨
        Opens name before operation :=
  isOpen_of_same same (not_shuts_of_keepsHandle keeps) (not_opens_of_keepsHandle keeps)

section Engine

variable [PatternEngine]

/-- A handle is open after an operation when the operation opened it, or when it was open and the
operation did not close or drop it. -/
theorem isOpen_perform (store : Store) (operation : Operation) (name : String) :
    ((store.perform operation).1.reading name).isSome ↔
      ((store.reading name).isSome ∧ ¬ Shuts name store operation) ∨
        Opens name store operation := by
  cases store.perform_move operation with
  | answered gives quiet keeps =>
      exact isOpen_of_keepsHandle (congrArg Option.isSome (quiet.reading name)) keeps
  | refused gives quiet keeps =>
      exact isOpen_of_keepsHandle (congrArg Option.isSome (quiet.reading name)) keeps
  | interrupted gives admitted stopped back =>
      exact isOpen_of_keepsHandle (congrArg Option.isSome (back.reading name))
        (Request.keepsHandle_of_change? admitted.writes)
  | published gives admitted goesOn asked written =>
      apply isOpen_of_keepsHandle _ (Request.keepsHandle_of_change? admitted.writes)
      rw [written.reading]
      by_cases same : name = operation.handle
      · rw [if_pos same, same, admitted.isOpen]
        rfl
      · rw [if_neg same]
  | opened gives asked opened =>
      by_cases same : name = operation.handle
      · rw [opened.reading, if_pos same]
        exact ⟨fun _ => .inr ⟨same.symm, asked⟩, fun _ => rfl⟩
      · apply isOpen_of_same
        · rw [opened.reading, if_neg same]
        · exact fun shuts => same shuts.1.symm
        · exact fun opens => same opens.1.symm
  | shut gives asked shut =>
      have notOpened : ¬ Opens name store operation := by
        rintro ⟨_, opens⟩
        rcases asked with asked | asked <;> rw [asked] at opens <;> cases opens
      by_cases same : name = operation.handle
      · rw [shut.reading, if_pos same]
        constructor
        · intro absent
          cases absent
        · rintro (⟨_, notShut⟩ | opens)
          · exact absurd ⟨same.symm, asked⟩ notShut
          · exact absurd opens notOpened
      · apply isOpen_of_same
        · rw [shut.reading, if_neg same]
        · exact fun shuts => same shuts.1.symm
        · exact notOpened

/-- A handle is open just when it was opened and neither closed nor dropped since. -/
theorem isOpen_run (onDisk : Bool) (history : List Operation) (name : String) :
    (((empty onDisk).run history).reading name).isSome ↔
      Since (Opens name) (Shuts name) (empty onDisk) history := by
  rw [run_iff_since (fun _ => True) (fun store => (store.reading name).isSome) (Opens name)
    (Shuts name) (fun _ _ _ => trivial)
    (fun store operation _ => isOpen_perform store operation name) history trivial]
  constructor
  · rintro (⟨isOpen, _⟩ | since)
    · cases isOpen
    · exact since
  · exact .inr

/-! ## Answers -/

/-- A closed handle answers nothing. -/
theorem perform_closed {store : Store} {name : String} (closed : store.reading name = none)
    {request : Request} (heeds : request.heedsToken = true)
    (hasSource : ∀ interruption now, request ≠ .reindex none interruption now) :
    (store.perform ⟨name, false, request⟩).2 = .error .closed := by
  have seen : store.view name false = .error .closed := view_of_closed closed
  cases request with
  | «open» | close | drop | finishReindex => cases heeds
  | reindex source interruption now =>
      cases source with
      | none => exact absurd rfl (hasSource interruption now)
      | some source =>
          simp only [perform, reindex, beginReindex, seen]
          rfl
  | add => simp only [perform, add, write, seen]; rfl
  | remove => simp only [perform, remove, write, seen]; rfl
  | get => simp only [perform, get, seen]; rfl
  | find => simp only [perform, find, seen]; rfl
  | count => simp only [perform, count, seen]; rfl
  | stats => simp only [perform, stats, seen]; rfl
  | beginReindex => simp only [perform, beginReindex, seen]; rfl

/-- A handle that answers from a catalogue.  An entry that is nested too deep is counted, but it
can be loaded neither alone nor among all. -/
structure AnswersFrom (catalogue : Catalogue) (name : String) (store : Store) : Prop where
  get : ∀ path note, catalogue.lookup path = some note → Loadable note →
    (store.perform ⟨name, false, .get path⟩).2 = .ok (.note note)
  absent : ∀ path, catalogue.lookup path = none →
    (store.perform ⟨name, false, .get path⟩).2 = .error (.notFound path)
  count : ∀ now options, options.isEmpty →
    (store.perform ⟨name, false, .count now options⟩).2 = .ok (.number catalogue.keys.card)
  find : ∀ now options, options.isEmpty → options.offset = 0 →
    catalogue.keys.card ≤ options.effectiveLimit → catalogue.IsLoadable →
    ∃ results, (store.perform ⟨name, false, .find now options⟩).2 = .ok (.results results) ∧
      results.total = catalogue.keys.card ∧
      (results.hits.map fun hit => hit.note.path).Nodup ∧
      ∀ note, note ∈ results.hits.map Hit.note ↔ catalogue.lookup note.path = some note
  tooDeep : ∀ path note, catalogue.lookup path = some note → ¬Loadable note →
    (∃ fault, (store.perform ⟨name, false, .get path⟩).2 = .error fault) ∧
    ∀ now options, options.isEmpty → options.offset = 0 →
      catalogue.keys.card ≤ options.effectiveLimit →
      ∃ fault, (store.perform ⟨name, false, .find now options⟩).2 = .error fault
  write : ∀ request, request.change?.isSome → request.isInterrupted = false →
    (store.perform ⟨name, false, request⟩).2 = .ok .done

theorem answersFrom_of_represents {store : Store} {name : String} {catalogue : Catalogue}
    (sole : Sole name store) (isOpen : (store.reading name).isSome)
    (represents : Represents store.committed.notes catalogue) :
    AnswersFrom catalogue name store := by
  rcases Option.isSome_iff_exists.mp isOpen with ⟨contents, reads⟩
  have fresh : contents = store.committed := sole.fresh contents reads
  subst fresh
  refine ⟨?get, ?absent, ?count, ?find, ?tooDeep, ?write⟩
  case get =>
    intro path note listed loadable
    rw [perform_get reads, get_of_loadable represents listed loadable]
    rfl
  case absent =>
    intro path absent
    rw [perform_get reads, get_of_lookup_eq_none represents absent]
    rfl
  case count =>
    intro now options asksNothing
    rw [perform_count reads, count_eq represents asksNothing]
    rfl
  case find =>
    intro now options asksNothing fromFirst roomy loadable
    rcases find_everything represents asksNothing fromFirst roomy loadable now with
      ⟨results, found, all⟩
    refine ⟨results, ?_, all⟩
    rw [perform_find reads, found]
    rfl
  case tooDeep =>
    intro path note listed tooDeep
    constructor
    · rcases exists_get_fault represents listed tooDeep with ⟨fault, failed⟩
      exact ⟨fault, by rw [perform_get reads, failed]; rfl⟩
    · intro now options asksNothing fromFirst roomy
      rcases exists_find_everything_fault represents asksNothing fromFirst roomy listed tooDeep
        now with ⟨fault, failed⟩
      exact ⟨fault, by rw [perform_find reads, failed]; rfl⟩
  case write =>
    intro request writes goesOn
    have admitted : store.Admits ⟨name, false, request⟩ := ⟨rfl, writes, isOpen, sole.mayWrite⟩
    rcases published_of_admits admitted goesOn with ⟨change, asked, gives, written⟩
    exact gives

/-- A store that is used through one handle, in any order of operations whose paths are indexed and
whose sources have distinct paths, as long as no rebuild succeeds through a writer that is not
settled.

The handle is open just when it was opened and neither closed nor dropped since.  While it is open
it answers from the catalogue of the operations that succeeded, as far as the entries can be loaded;
while it is closed it answers nothing.
The entries of the catalogue are stored notes.  Where the writer has a removal newer than its first
number, a rebuild from some source loses a note. -/
theorem sole_handle_refines_catalogue (onDisk : Bool) (name : String) (history : List Operation)
    (own : ∀ operation ∈ history, operation.handle = name)
    (proper : ∀ operation ∈ history, operation.request.IsProper)
    (calm : Never UnsettledRebuild (empty onDisk) history) :
    let store := (empty onDisk).run history
    ((store.reading name).isSome ↔ Since (Opens name) (Shuts name) (empty onDisk) history) ∧
      ((store.reading name).isSome →
        AnswersFrom ((empty onDisk).catalogue history) name store) ∧
      (store.reading name = none → ∀ request, request.heedsToken = true →
        (∀ interruption now, request ≠ .reindex none interruption now) →
        (store.perform ⟨name, false, request⟩).2 = .error .closed) ∧
      (∀ note, Storable note →
        (∀ text, text ∈ (stored note).tags ↔ ∃ tag ∈ note.tags, text = Text.lower tag) ∧
        (stored note).tags.Pairwise (· < ·) ∧
        stored note =
          { note with
            tags := (stored note).tags
            created := note.created.map wholeSecond
            modified := note.modified.map wholeSecond } ∧
        stored (stored note) = stored note) ∧
      ∀ removal now, (store.reading name).isSome → removal ∈ store.writerFor.ahead →
        store.writerFor.first < removal.number → Indexable removal.path →
        ∃ source note, (source.map Note.path).Nodup ∧ note ∈ source ∧
          store.Succeeds ⟨name, false, .reindex (some (.ok source)) none now⟩ ∧
          ∀ other ∈ (store.perform
              ⟨name, false, .reindex (some (.ok source)) none now⟩).1.committed.notes,
            other.path ≠ note.path := by
  intro store
  have sole : Sole name store := sole_run own (sole_empty onDisk name)
  refine ⟨isOpen_run onDisk history name, ?_, ?_, ?_, ?_⟩
  · intro isOpen
    exact answersFrom_of_represents sole isOpen (represents_run proper calm)
  · intro closed request heeds hasSource
    exact perform_closed closed heeds hasSource
  · intro note storable
    exact ⟨mem_storedTags note.tags, storedTags_ascending note.tags, stored_eq storable,
      stored_stored storable⟩
  · intro removal now isOpen member newer short
    exact exists_rebuild_loses isOpen sole.mayWrite member newer short now

end Engine

open scoped PatternEngine

/-- A run with an addition, a cancelled one, two rebuilds of which one fails, removals and a new
start of the handle leaves one note. -/
theorem sole_handle_counts_one :
    let history : List Operation :=
      [⟨"0", false, .open⟩, ⟨"0", false, .add (.ofPath "b")⟩, ⟨"0", true, .add (.ofPath "c")⟩,
        ⟨"0", false, .reindex (some (.ok [.ofPath "x.md", .ofPath "a"])) none default⟩,
        ⟨"0", false, .remove "a"⟩, ⟨"0", false, .remove "missing"⟩,
        ⟨"0", false, .reindex (some (.error .semanticUnavailable)) none default⟩,
        ⟨"0", false, .close⟩, ⟨"0", false, .open⟩]
    (∀ operation ∈ history, operation.handle = "0") ∧
      (∀ operation ∈ history, operation.request.IsProper) ∧
      Never UnsettledRebuild (empty true) history ∧
      (((empty true).run history).perform ⟨"0", false, .count default .empty⟩).2 =
        .ok (.number 1) := by
  intro history
  have own : ∀ operation ∈ history, operation.handle = "0" := by decide
  have proper : ∀ operation ∈ history, operation.request.IsProper := by decide +kernel
  have calm : Never UnsettledRebuild (empty true) history := by decide +kernel
  have isOpen : (((empty true).run history).reading "0").isSome := by decide +kernel
  have size : ((empty true).catalogue history).keys.card = 1 := by decide +kernel
  have refined := sole_handle_refines_catalogue true "0" history own proper calm
  refine ⟨own, proper, calm, ?_⟩
  rw [← size]
  exact (refined.2.1 isOpen).count default .empty rfl

/-- A removal in front of a rebuild holds up the next one: `a` was removed, and is no entry of the
catalogue, but it is still found. -/
theorem removed_note_still_found :
    let history : List Operation :=
      [⟨"0", false, .open⟩, ⟨"0", false, .add (.ofPath "a")⟩, ⟨"0", false, .add (.ofPath "b")⟩,
        ⟨"0", false, .remove "b"⟩,
        ⟨"0", false, .reindex (some (.ok [.ofPath "x.md", .ofPath "a"])) none default⟩,
        ⟨"0", false, .remove "a"⟩]
    (((empty false).catalogue history).lookup "a").isNone ∧
      (((empty false).run history).perform ⟨"0", false, .get "a"⟩).2.isOk := by
  decide +kernel

end Store

end Index
end Commonplace
