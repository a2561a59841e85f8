import Commonplace.Proofs.Index.Catalogue

namespace Commonplace
namespace Index

/-!
# How often a path is stored

A note that is added takes the place of those with its path, but a rebuild writes what its source
lists, and a path that is too long to be indexed is not found when a note is to be replaced.  How
many notes have a path is known from the requests that succeeded.  The paths stay distinct in every
state of a run just when none of its operations repeats a path, and then a handle tells its notes
apart by their paths.
-/

/-- The paths of some notes, in their order. -/
def notePaths (notes : List Note) : List String :=
  notes.map Note.path

namespace Request

/-- What a request makes of the number of notes with a path when it succeeds. -/
def copies (onDisk : Bool) (path : String) (request : Request) (count : Nat) : Nat :=
  match request with
  | «open» => if onDisk then count else 0
  | add note => if note.path = path then (if Indexable path then 1 else count + 1) else count
  | remove removed => if removed = path ∧ Indexable path then 0 else count
  | request => (request.replacement?.map fun source => (notePaths source).count path).getD count

/-- Whether a request puts a path beside the same one: it brings a source that lists a path twice,
or a note with a path that is there already and is not indexed. -/
def Repeats (request : Request) (notes : List Note) : Prop :=
  (∃ source ∈ request.replacement?, ¬ (notePaths source).Nodup) ∨
    ∃ note ∈ request.addition?, ¬ Indexable note.path ∧ note.path ∈ notePaths notes

instance (request : Request) (notes : List Note) : Decidable (request.Repeats notes) :=
  inferInstanceAs (Decidable ((∃ source ∈ request.replacement?, ¬ (notePaths source).Nodup) ∨
    ∃ note ∈ request.addition?, ¬ Indexable note.path ∧ note.path ∈ notePaths notes))

end Request

/-! ## One request -/

/-- The notes that are left with a path when another one is removed. -/
theorem count_filter_hasPath (removed path : String) (notes : List Note) :
    (notePaths (notes.filter fun note => !hasPath removed note)).count path =
      if removed = path ∧ Indexable path then 0 else (notePaths notes).count path := by
  rw [notePaths, notePaths, List.count_eq_countP, List.count_eq_countP, List.countP_map,
    List.countP_map, List.countP_filter]
  by_cases gone : removed = path ∧ Indexable path
  · rw [if_pos gone, List.countP_eq_zero]
    intro note _ kept
    simp only [Function.comp_apply, Bool.and_eq_true, beq_iff_eq, Bool.not_eq_true'] at kept
    have found : hasPath removed note = true :=
      (hasPath_eq_true_iff removed note).mpr ⟨kept.1.trans gone.1.symm, gone.1 ▸ gone.2⟩
    rw [kept.2] at found
    cases found
  · rw [if_neg gone]
    apply List.countP_congr
    intro note _
    simp only [Function.comp_apply, Bool.and_eq_true, beq_iff_eq, Bool.not_eq_true',
      and_iff_left_iff_imp]
    intro same
    rw [Bool.eq_false_iff]
    intro found
    rcases (hasPath_eq_true_iff removed note).mp found with ⟨removedPath, short⟩
    exact gone ⟨removedPath.symm.trans same, same ▸ removedPath ▸ short⟩

theorem count_applied (request : Request) (onDisk : Bool) (path : String) (notes : List Note) :
    (notePaths (request.applied onDisk notes)).count path =
      request.copies onDisk path ((notePaths notes).count path) := by
  have replaced : ∀ source : Option (List Note), (notePaths (source.getD notes)).count path =
      (source.map fun source => (notePaths source).count path).getD
        ((notePaths notes).count path) := by
    intro source
    cases source <;> rfl
  cases request with
  | «open» => cases onDisk <;> rfl
  | add note =>
      have appended : notePaths ((notes.filter fun other => !hasPath note.path other) ++ [note]) =
          notePaths (notes.filter fun other => !hasPath note.path other) ++ [note.path] :=
        List.map_append
      rw [Request.applied, Request.copies, appended, List.count_append, count_filter_hasPath]
      by_cases same : note.path = path
      · subst same
        by_cases short : Indexable note.path <;> simp [short]
      · simp [same]
  | remove removed => exact count_filter_hasPath removed path notes
  | close | drop | get | find | count | stats | beginReindex => exact replaced none
  | reindex | finishReindex => exact replaced _

theorem Request.not_repeats {request : Request} (notes : List Note)
    (replacesNothing : request.replacement? = none) (addsNothing : request.addition? = none) :
    ¬ request.Repeats notes := by
  simp [Repeats, replacesNothing, addsNothing]

theorem nodup_added_iff {notes : List Note} (distinct : (notePaths notes).Nodup) (note : Note)
    (onDisk : Bool) :
    (notePaths ((Request.add note).applied onDisk notes)).Nodup ↔
      ¬ (Request.add note).Repeats notes := by
  have atMostOne := List.nodup_iff_count_le_one.mp distinct
  have repeats : (Request.add note).Repeats notes ↔
      ¬ Indexable note.path ∧ note.path ∈ notePaths notes := by
    simp [Request.Repeats, Request.replacement?, Request.addition?]
  rw [repeats, List.nodup_iff_count_le_one]
  simp only [count_applied, Request.copies]
  constructor
  · rintro atMost ⟨long, listed⟩
    have counted := atMost note.path
    rw [if_pos rfl, if_neg long] at counted
    have positive := List.count_pos_iff.mpr listed
    omega
  · intro fresh path
    by_cases same : note.path = path
    · subst same
      by_cases short : Indexable note.path
      · rw [if_pos rfl, if_pos short]
      · have absent : note.path ∉ notePaths notes := fun listed => fresh ⟨short, listed⟩
        rw [if_pos rfl, if_neg short, List.count_eq_zero.mpr absent]
    · rw [if_neg same]
      exact atMostOne path

/-- Distinct paths stay distinct just when the request does not repeat one. -/
theorem nodup_applied_iff {notes : List Note} (distinct : (notePaths notes).Nodup)
    (request : Request) (onDisk : Bool) :
    (notePaths (request.applied onDisk notes)).Nodup ↔ ¬ request.Repeats notes := by
  have rebuilt : ∀ other : Request, other.addition? = none →
      other.applied onDisk notes = other.replacement?.getD notes →
      ((notePaths (other.applied onDisk notes)).Nodup ↔ ¬ other.Repeats notes) := by
    intro other addsNothing applied
    rw [applied]
    cases replaces : other.replacement? with
    | none => exact iff_of_true distinct (Request.not_repeats notes replaces addsNothing)
    | some source => simp [Request.Repeats, replaces, addsNothing]
  cases request with
  | «open» =>
      refine iff_of_true ?_ (Request.not_repeats notes rfl rfl)
      cases onDisk
      · exact List.nodup_nil
      · exact distinct
  | add note => exact nodup_added_iff distinct note onDisk
  | remove removed =>
      exact iff_of_true (nodup_paths_filter distinct _) (Request.not_repeats notes rfl rfl)
  | close | drop | get | find | count | stats | beginReindex =>
      exact iff_of_true distinct (Request.not_repeats notes rfl rfl)
  | reindex | finishReindex => exact rebuilt _ rfl rfl

namespace Store

/-! ## Runs -/

theorem count_foldl_applied (onDisk : Bool) (path : String) (requests : List Request)
    (notes : List Note) :
    (notePaths (requests.foldl (fun notes request => request.applied onDisk notes) notes)).count
        path =
      requests.foldl (fun count request => request.copies onDisk path count)
        ((notePaths notes).count path) := by
  induction requests generalizing notes with
  | nil => rfl
  | cons request rest inductionHypothesis =>
      rw [List.foldl_cons, List.foldl_cons, inductionHypothesis, count_applied]

section Engine

variable [PatternEngine]

/-- An operation that succeeds and repeats a path of the store. -/
def RepeatsPath (store : Store) (operation : Operation) : Prop :=
  store.Succeeds operation ∧ operation.request.Repeats store.committed.notes

instance (store : Store) (operation : Operation) : Decidable (store.RepeatsPath operation) :=
  inferInstanceAs (Decidable (_ ∧ _))

theorem error_of_not_succeeds {store : Store} {operation : Operation}
    (failed : ¬ store.Succeeds operation) :
    ∃ fault, (store.perform operation).2 = .error fault := by
  cases outcome : (store.perform operation).2 with
  | ok answer => exact absurd ⟨answer, outcome⟩ failed
  | error fault => exact ⟨fault, rfl⟩

theorem nodup_perform_iff {store : Store} (ready : store.Ready)
    (distinct : (notePaths store.committed.notes).Nodup) {operation : Operation}
    (calm : ¬ store.UnsettledRebuild operation) :
    (notePaths (store.perform operation).1.committed.notes).Nodup ↔
      ¬ store.RepeatsPath operation := by
  by_cases succeeded : store.Succeeds operation
  · rw [notes_perform ready calm succeeded, nodup_applied_iff distinct, RepeatsPath, not_and]
    exact ⟨fun fresh _ => fresh, fun fresh => fresh succeeded⟩
  · rcases error_of_not_succeeds succeeded with ⟨fault, failed⟩
    rw [committed_perform_of_error failed]
    exact iff_of_true distinct fun repeats => succeeded repeats.1

/-- The paths are distinct in every state of a run just when no operation repeats one. -/
theorem nodup_run_iff {store : Store} (ready : store.Ready)
    (distinct : (notePaths store.committed.notes).Nodup) {history : List Operation}
    (calm : Never UnsettledRebuild store history) :
    (∀ early late, history = early ++ late →
        (notePaths (store.run early).committed.notes).Nodup) ↔
      Never RepeatsPath store history := by
  induction history generalizing store with
  | nil =>
      refine iff_of_true ?_ trivial
      intro early late parts
      rw [(List.append_eq_nil_iff.mp parts.symm).1]
      exact distinct
  | cons operation rest inductionHypothesis =>
      have step := nodup_perform_iff ready distinct calm.1
      constructor
      · intro everywhere
        have after := everywhere [operation] rest rfl
        refine ⟨step.mp after,
          (inductionHypothesis (ready_perform ready calm.1) after calm.2).mp ?_⟩
        intro early late parts
        exact everywhere (operation :: early) late (congrArg (List.cons operation) parts)
      · rintro ⟨fresh, never⟩ early late parts
        cases early with
        | nil => exact distinct
        | cons head tail =>
            rcases List.cons_eq_cons.mp parts with ⟨rfl, rest⟩
            exact (inductionHypothesis (ready_perform ready calm.1) (step.mpr fresh) calm.2).mpr
              never tail late rest

/-! ## What handles read -/

/-- After an operation a handle reads what it read before, or what is committed. -/
theorem reading_perform_cases {store : Store} {operation : Operation} {name : String}
    {contents : Contents} (reads : (store.perform operation).1.reading name = some contents) :
    store.reading name = some contents ∨
      contents = (store.perform operation).1.committed := by
  have refreshed : ∀ {after : Store}, (after.reading name =
      if name = operation.handle then some after.committed else store.reading name) →
      after.reading name = some contents →
      store.reading name = some contents ∨ contents = after.committed := by
    intro after reading reads
    rw [reading] at reads
    split at reads
    · exact .inr (Option.some.inj reads).symm
    · exact .inl reads
  cases store.perform_move operation with
  | answered gives quiet => exact .inl ((quiet.reading name).symm.trans reads)
  | refused gives quiet => exact .inl ((quiet.reading name).symm.trans reads)
  | interrupted gives admitted stopped back => exact .inl ((back.reading name).symm.trans reads)
  | published gives admitted goesOn asked written => exact refreshed (written.reading name) reads
  | opened gives asked opened => exact refreshed (opened.reading name) reads
  | shut gives asked shut =>
      rw [shut.reading] at reads
      split at reads
      · cases reads
      · exact .inl reads

/-- What holds of all that is committed in the course of a run holds of what its handles read. -/
theorem reading_run_of_committed {holds : Contents -> Prop} {store : Store}
    (first : ∀ name contents, store.reading name = some contents → holds contents)
    {history : List Operation}
    (committed : ∀ early late, history = early ++ late → holds (store.run early).committed)
    {name : String} {contents : Contents}
    (reads : (store.run history).reading name = some contents) : holds contents := by
  induction history generalizing store with
  | nil => exact first name contents reads
  | cons operation rest inductionHypothesis =>
      apply inductionHypothesis _ _ reads
      · intro other seen otherReads
        rcases reading_perform_cases otherReads with before | rfl
        · exact first other seen before
        · exact committed [operation] rest rfl
      · intro early late parts
        exact committed (operation :: early) late (congrArg (List.cons operation) parts)

omit [PatternEngine] in
/-- Of notes with distinct paths the one with an indexed path is found. -/
theorem find?_hasPath_of_mem {notes : List Note} (distinct : (notePaths notes).Nodup) {note : Note}
    (member : note ∈ notes) (short : Indexable note.path) :
    notes.find? (hasPath note.path) = some note := by
  cases first : notes.find? (hasPath note.path) with
  | none =>
      have missed := List.find?_eq_none.mp first note member
      exact absurd ((hasPath_eq_true_iff note.path note).mpr ⟨rfl, short⟩) missed
  | some other =>
      have same := ((hasPath_eq_true_iff note.path other).mp (List.find?_some first)).1
      rw [List.inj_on_of_nodup_map distinct (List.mem_of_find?_eq_some first) member same]

omit [PatternEngine] in
theorem find?_hasPath_of_not_mem {notes : List Note} {path : String}
    (absent : path ∉ notePaths notes) : notes.find? (hasPath path) = none := by
  rw [List.find?_eq_none]
  intro note member found
  exact absent (List.mem_map.mpr ⟨note, member, ((hasPath_eq_true_iff path note).mp found).1⟩)

/-- What a handle answers about notes with distinct paths: it counts the paths, and finds the only
note with a path that is indexed, if that note can be loaded. -/
structure TellsApart (store : Store) (name : String) (contents : Contents) : Prop where
  distinct : (notePaths contents.notes).Nodup
  count : ∀ now options, options.isEmpty →
    (store.perform ⟨name, false, .count now options⟩).2 =
      .ok (.number (notePaths contents.notes).toFinset.card)
  get : ∀ note ∈ contents.notes, Indexable note.path →
    (Loadable note →
      (store.perform ⟨name, false, .get note.path⟩).2 = .ok (.note (stored note))) ∧
    (¬Loadable note → ∃ fault,
      (store.perform ⟨name, false, .get note.path⟩).2 = .error fault) ∧
    ∀ other ∈ contents.notes, other.path = note.path → other = note
  absent : ∀ path, path ∉ notePaths contents.notes →
    (store.perform ⟨name, false, .get path⟩).2 = .error (.notFound path)

section Answers

variable {store : Store} {name : String} {contents : Contents}
  (reads : store.reading name = some contents)

include reads

/-- The number of all notes, whatever their paths are. -/
theorem perform_count_of_isEmpty {options : SearchOptions} (asksNothing : options.isEmpty)
    (now : Time.Instant) :
    (store.perform ⟨name, false, .count now options⟩).2 =
      .ok (.number contents.notes.length) := by
  rw [perform_count reads, Index.count, if_pos asksNothing]
  rfl

theorem perform_get_of_find? {path : String} {note : Note}
    (first : contents.notes.find? (hasPath path) = some note) :
    (store.perform ⟨name, false, .get path⟩).2 =
      ((loaded note).mapError (Fault.wrap "find_by_path" path)).map .note := by
  rw [perform_get reads, get_of_find? first]

theorem tellsApart_of_nodup (distinct : (notePaths contents.notes).Nodup) :
    TellsApart store name contents := by
  refine ⟨distinct, ?count, ?get, ?absent⟩
  case count =>
    intro now options asksNothing
    rw [perform_count_of_isEmpty reads asksNothing, List.toFinset_card_of_nodup distinct, notePaths,
      List.length_map]
  case get =>
    intro note member short
    have only : ∀ other ∈ contents.notes, other.path = note.path → other = note :=
      fun other otherMember same => List.inj_on_of_nodup_map distinct otherMember member same
    have answer := perform_get_of_find? reads (find?_hasPath_of_mem distinct member short)
    refine ⟨fun loadable => ?_, fun tooDeep => ?_, only⟩
    · rw [answer, loaded_of_loadable loadable]
      rfl
    · rcases loaded_of_not_loadable tooDeep with ⟨fault, failed⟩
      exact ⟨_, by rw [answer, failed]; rfl⟩
  case absent =>
    intro path absent
    rw [perform_get reads, Index.get, find?_hasPath_of_not_mem absent]
    rfl

/-- The number of all notes is that of their paths only when the paths are distinct. -/
theorem nodup_of_perform_count {now : Time.Instant} {options : SearchOptions}
    (asksNothing : options.isEmpty)
    (counted : (store.perform ⟨name, false, .count now options⟩).2 =
      .ok (.number (notePaths contents.notes).toFinset.card)) :
    (notePaths contents.notes).Nodup := by
  rw [perform_count_of_isEmpty reads asksNothing] at counted
  have sizes : contents.notes.length = (notePaths contents.notes).toFinset.card :=
    Answer.number.inj (Except.ok.inj counted)
  have asMultiset : (notePaths contents.notes : Multiset String).toFinset.card =
      (notePaths contents.notes : Multiset String).card := by
    rw [Multiset.coe_card, notePaths, List.length_map]
    exact sizes.symm
  exact Multiset.coe_nodup.mp (Multiset.toFinset_card_eq_card_iff_nodup.mp asMultiset)

end Answers

/-- How often paths are stored, in any run as long as no rebuild succeeds through a writer that is
not settled.

The notes with a path are as many as the requests that succeeded come to.  The paths are distinct in
every state of the run just when none of its operations repeats a path.  If so, every handle tells
the notes that it reads apart by their paths, and gets those that can be loaded.  In any case a
handle whose notes do not have distinct paths does not count their paths. -/
theorem paths_distinct_iff_never_repeated (onDisk : Bool) (history : List Operation)
    (calm : Never UnsettledRebuild (empty onDisk) history) :
    let store := (empty onDisk).run history
    (∀ path, (notePaths store.committed.notes).count path =
        ((empty onDisk).answered history).foldl
          (fun count request => request.copies onDisk path count) 0) ∧
      ((∀ early late, history = early ++ late →
          (notePaths ((empty onDisk).run early).committed.notes).Nodup) ↔
        Never RepeatsPath (empty onDisk) history) ∧
      (Never RepeatsPath (empty onDisk) history →
        ∀ name contents, store.reading name = some contents → TellsApart store name contents) ∧
      (∀ name contents now options, store.reading name = some contents → options.isEmpty →
        (store.perform ⟨name, false, .count now options⟩).2 =
          .ok (.number (notePaths contents.notes).toFinset.card) →
        (notePaths contents.notes).Nodup) := by
  intro store
  have ready : (empty onDisk).Ready := ready_of_unheld rfl
  have everywhere := nodup_run_iff ready List.nodup_nil calm
  refine ⟨?counted, everywhere, ?apart, ?exact⟩
  case counted =>
    intro path
    rw [(run_applies ready calm).2]
    exact count_foldl_applied onDisk path _ []
  case apart =>
    intro never name contents reads
    apply tellsApart_of_nodup reads
    apply @reading_run_of_committed _ (fun seen => (notePaths seen.notes).Nodup) _ _ _
      (everywhere.mpr never) _ _ reads
    intro other seen otherReads
    cases otherReads
  case exact =>
    intro name contents now options reads asksNothing
    exact nodup_of_perform_count reads asksNothing

end Engine

open scoped PatternEngine

/-- Two handles, an addition that replaces a note, rebuilds of which one fails, and a removal: every
path is stored once. -/
theorem two_handles_count_paths :
    let history : List Operation :=
      [⟨"0", false, .open⟩, ⟨"0", false, .add (.ofPath "a")⟩, ⟨"0", false, .add (.ofPath "a")⟩,
        ⟨"1", false, .open⟩,
        ⟨"0", false, .reindex (some (.ok [.ofPath "x.md", .ofPath "a"])) none default⟩,
        ⟨"1", false, .add (.ofPath "b")⟩, ⟨"0", false, .remove "x.md"⟩,
        ⟨"0", false, .reindex (some (.error .semanticUnavailable)) none default⟩,
        ⟨"0", false, .add (.ofPath "b")⟩]
    Never UnsettledRebuild (empty true) history ∧ Never RepeatsPath (empty true) history ∧
      (((empty true).run history).perform ⟨"0", false, .count default .empty⟩).2 =
        .ok (.number 2) ∧
      (((empty true).run history).perform ⟨"0", false, .get "a"⟩).2 =
        .ok (.note (stored (.ofPath "a"))) := by
  intro history
  have calm : Never UnsettledRebuild (empty true) history := by decide +kernel
  have never : Never RepeatsPath (empty true) history := by decide +kernel
  have reads : ((empty true).run history).reading "0" =
      some ((empty true).run history).committed := by rfl
  have tells := (paths_distinct_iff_never_repeated true history calm).2.2.1 never "0" _ reads
  have left : ((empty true).run history).committed.notes = [.ofPath "a", .ofPath "b"] := by rfl
  have listed : Note.ofPath "a" ∈ ((empty true).run history).committed.notes := by
    rw [left]
    exact List.mem_cons_self
  refine ⟨calm, never, ?_, (tells.get _ listed (by decide)).1 (by decide)⟩
  rw [tells.count default .empty rfl, left]
  rfl

/-- A source that lists a path twice, and a removal in front of a rebuild, leave two notes with one
path. -/
theorem rebuild_repeats_path :
    let listedTwice : List Operation :=
      [⟨"0", false, .open⟩,
        ⟨"0", false, .reindex (some (.ok [.ofPath "a", .ofPath "a"])) none default⟩]
    let heldUp : List Operation :=
      [⟨"0", false, .open⟩, ⟨"0", false, .add (.ofPath "a")⟩, ⟨"0", false, .add (.ofPath "b")⟩,
        ⟨"0", false, .remove "b"⟩,
        ⟨"0", false, .reindex (some (.ok [.ofPath "x.md", .ofPath "a"])) none default⟩,
        ⟨"0", false, .add (.ofPath "a")⟩]
    notePaths ((empty false).run listedTwice).committed.notes = ["a", "a"] ∧
      Never UnsettledRebuild (empty false) listedTwice ∧
      notePaths ((empty false).run heldUp).committed.notes = ["x.md", "a", "a"] ∧
      Never RepeatsPath (empty false) heldUp := by
  decide +kernel

end Store

end Index
end Commonplace
