import Commonplace.Proofs.Index.Agreement
import Commonplace.Proofs.Index.Catalogue
import Mathlib.Data.Prod.Lex
import Mathlib.Order.WithBot

namespace Commonplace

/-!
# The ranking of results

A search lists one part of a ranking of all notes that are selected.  The ranking does not depend on
the part that is asked for, and its length is the number that is counted.  Unless the best notes
come first, it is the only arrangement of the selected notes by a key and by their paths, so it does
not depend on the order of the index either.  A search that would have to load a note that is nested
too deep lists nothing and fails.
-/

/-- The same options with another order and another part of the results. -/
def SearchOptions.arranged (options : SearchOptions) (field : SortField)
    (direction : SortDirection) (limit offset : Nat) : SearchOptions :=
  { options with
    sortField := field
    sortDirection := direction
    limit := limit
    offset := offset }

namespace Index

/-! ## Keys -/

/-- Whether a date comes before another; a missing date comes before all others. -/
def DateBefore : Option Time.Instant -> Option Time.Instant -> Prop
  | none, some _ => True
  | some first, some second =>
      first.seconds < second.seconds ∨
        first.seconds = second.seconds ∧ first.nanoseconds < second.nanoseconds
  | _, none => False

/-- Whether the key of a note comes before the key of another. -/
def KeyBefore (field : SortField) (first second : Note) : Prop :=
  match field with
  | .relevance => False
  | .created => DateBefore first.created second.created
  | .modified => DateBefore first.modified second.modified
  | .title => Text.lower first.title < Text.lower second.title
  | .path => first.path < second.path

/-- Whether a note is listed before another: by its key in the direction that is asked for, and
among notes with the same key by its path. -/
def Precedes (field : SortField) (direction : SortDirection) (first second : Note) : Prop :=
  match direction with
  | .ascending =>
      KeyBefore field first second ∨ ¬KeyBefore field second first ∧ first.path < second.path
  | .descending =>
      KeyBefore field second first ∨ ¬KeyBefore field first second ∧ first.path < second.path

theorem dateOrder_eq_lt_iff (first second : Option Time.Instant) :
    dateOrder first second = .lt ↔ DateBefore first second := by
  match first, second with
  | none, none | none, some _ | some _, none => simp [dateOrder, DateBefore]
  | some first, some second =>
      rw [dateOrder, Time.Instant.order, Ordering.then_eq_lt, compare_lt_iff_lt,
        compare_eq_iff_eq, compare_lt_iff_lt, DateBefore]

theorem dateOrder_eq_gt_iff (first second : Option Time.Instant) :
    dateOrder first second = .gt ↔ DateBefore second first := by
  match first, second with
  | none, none | none, some _ | some _, none => simp [dateOrder, DateBefore]
  | some first, some second =>
      rw [dateOrder, Time.Instant.order, Ordering.then_eq_gt, compare_gt_iff_gt,
        compare_eq_iff_eq, compare_gt_iff_gt, DateBefore, eq_comm]

section Key

variable {field : SortField} (plain : field ≠ .relevance) (first second : Float32 × Note)

include plain

theorem keyOrder_eq_lt_iff :
    keyOrder field first second = .lt ↔ KeyBefore field first.2 second.2 := by
  cases field with
  | relevance => exact absurd rfl plain
  | created | modified => exact dateOrder_eq_lt_iff _ _
  | title | path => exact compare_lt_iff_lt

theorem keyOrder_eq_gt_iff :
    keyOrder field first second = .gt ↔ KeyBefore field second.2 first.2 := by
  cases field with
  | relevance => exact absurd rfl plain
  | created | modified => exact dateOrder_eq_gt_iff _ _
  | title | path => exact compare_gt_iff_gt

/-- A note is listed no later than another unless the other precedes it. -/
theorem listedFirst_iff (direction : SortDirection) :
    listedFirst field direction first second = true ↔
      ¬Precedes field direction second.2 first.2 := by
  have listing : listedFirst field direction first second =
      (listingOrder field direction first second).isLE := by
    cases field with
    | relevance => exact absurd rfl plain
    | created | modified | title | path => cases direction <;> rfl
  have less := keyOrder_eq_lt_iff plain first second
  have greater := keyOrder_eq_gt_iff plain first second
  have paths : (compare first.2.path second.2.path).isLE = true ↔
      ¬second.2.path < first.2.path := by
    rw [Ordering.isLE_iff_ne_gt]
    exact not_congr compare_gt_iff_gt
  rw [listing]
  unfold listingOrder
  cases direction with
  | ascending =>
      rw [Precedes, ← greater, ← less]
      cases keyOrder field first second <;> simp [paths]
  | descending =>
      rw [Precedes, ← greater, ← less]
      cases keyOrder field first second <;> simp [paths]

end Key

/-- What is not greater and fulfils a condition is less, or it is equal and fulfils it. -/
theorem lt_or_not_lt_and_iff {order : Type} [LinearOrder order] {first second : order}
    {condition : Prop} :
    first < second ∨ ¬second < first ∧ condition ↔
      first < second ∨ first = second ∧ condition := by
  rcases lt_trichotomy first second with less | rfl | greater
  · simp [less]
  · simp
  · simp [greater, greater.not_gt, greater.ne']

/-- Notes are listed by a rank that tells notes with different paths apart. -/
theorem exists_rank_of_key {order : Type} [LinearOrder order] (key : Note -> order)
    {field : SortField} (before : ∀ first second, KeyBefore field first second ↔
      key first < key second) (direction : SortDirection) :
    ∃ (ranks : Type) (_ : LinearOrder ranks) (rank : Note -> ranks),
      (∀ first second, Precedes field direction first second ↔ rank first < rank second) ∧
        ∀ first second, rank first = rank second → first.path = second.path := by
  cases direction with
  | ascending =>
      refine ⟨order ×ₗ String, inferInstance, fun note => toLex (key note, note.path), ?_, ?_⟩
      · intro first second
        rw [Precedes, before, before, Prod.Lex.toLex_lt_toLex, lt_or_not_lt_and_iff]
      · intro first second same
        exact congrArg (fun pair => (ofLex pair).2) same
  | descending =>
      refine ⟨orderᵒᵈ ×ₗ String, inferInstance,
        fun note => toLex (OrderDual.toDual (key note), note.path), ?_, ?_⟩
      · intro first second
        rw [Precedes, before, before, Prod.Lex.toLex_lt_toLex, lt_or_not_lt_and_iff, eq_comm]
        rfl
      · intro first second same
        exact congrArg (fun pair => (ofLex pair).2) same

/-- Dates are ordered as elements of a linear order are. -/
theorem exists_dateKey :
    ∃ (order : Type) (_ : LinearOrder order) (key : Option Time.Instant -> order),
      ∀ first second, DateBefore first second ↔ key first < key second := by
  let key : Option Time.Instant -> WithBot (Int ×ₗ Nat) := fun date =>
    date.map fun instant => toLex (instant.seconds, instant.nanoseconds)
  refine ⟨WithBot (Int ×ₗ Nat), inferInstance, key, ?_⟩
  intro first second
  match first, second with
  | none, none => exact iff_of_false id (lt_irrefl _)
  | none, some second => exact iff_of_true trivial (WithBot.bot_lt_coe _)
  | some first, none => exact iff_of_false id not_lt_bot
  | some first, some second =>
      change DateBefore (some first) (some second) ↔
        WithBot.some (toLex (first.seconds, first.nanoseconds)) <
          WithBot.some (toLex (second.seconds, second.nanoseconds))
      rw [WithBot.coe_lt_coe, Prod.Lex.toLex_lt_toLex, DateBefore]

theorem exists_rank {field : SortField} (plain : field ≠ .relevance) (direction : SortDirection) :
    ∃ (ranks : Type) (_ : LinearOrder ranks) (rank : Note -> ranks),
      (∀ first second, Precedes field direction first second ↔ rank first < rank second) ∧
        ∀ first second, rank first = rank second → first.path = second.path := by
  rcases exists_dateKey with ⟨order, _, dateKey, before⟩
  have created : ∀ first second, KeyBefore .created first second ↔
      dateKey first.created < dateKey second.created := fun first second => before _ _
  have modified : ∀ first second, KeyBefore .modified first second ↔
      dateKey first.modified < dateKey second.modified := fun first second => before _ _
  cases field with
  | relevance => exact absurd rfl plain
  | created => exact exists_rank_of_key (fun note => dateKey note.created) created direction
  | modified => exact exists_rank_of_key (fun note => dateKey note.modified) modified direction
  | title => exact exists_rank_of_key (fun note => Text.lower note.title) (fun _ _ => Iff.rfl) _
  | path => exact exists_rank_of_key Note.path (fun _ _ => Iff.rfl) _

/-! ## The ranking -/

/-- The hits of all notes that are selected, in the order asked for. -/
def ranking (contents : Contents) (criterion : Criterion) (field : SortField)
    (direction : SortDirection) : List Hit :=
  (ranked contents criterion field direction).map fun entry =>
    ⟨entry.2, entry.1, Excerpt.ofBody (stemScores contents.counted criterion) entry.2.body⟩

section Ranking

variable (contents : Contents) (criterion : Criterion)

theorem map_note_ranking (field : SortField) (direction : SortDirection) :
    (ranking contents criterion field direction).map Hit.note =
      (ranked contents criterion field direction).map Prod.snd := by
  rw [ranking, List.map_map]
  rfl

/-- The ranking holds each note that is selected once, in its stored form. -/
theorem ranking_perm (field : SortField) (direction : SortDirection) :
    ((ranking contents criterion field direction).map Hit.note).Perm
      ((selected contents.notes criterion).map stored) := by
  rw [map_note_ranking]
  exact ranked_perm contents criterion field direction

theorem length_ranking (field : SortField) (direction : SortDirection) :
    (ranking contents criterion field direction).length =
      (selected contents.notes criterion).length := by
  have lengths := (ranking_perm contents criterion field direction).length_eq
  rw [List.length_map, List.length_map] at lengths
  exact lengths

/-- Notes with distinct paths are ranked with distinct paths. -/
theorem ranking_paths_nodup (distinct : (contents.notes.map Note.path).Nodup) (field : SortField)
    (direction : SortDirection) :
    (((ranking contents criterion field direction).map Hit.note).map Note.path).Nodup := by
  rw [((ranking_perm contents criterion field direction).map Note.path).nodup_iff, List.map_map]
  exact distinct.sublist (List.filter_sublist.map Note.path)

/-- Every note in the ranking precedes those after it. -/
theorem ranking_pairwise (distinct : (contents.notes.map Note.path).Nodup) {field : SortField}
    (plain : field ≠ .relevance) (direction : SortDirection) :
    ((ranking contents criterion field direction).map Hit.note).Pairwise
      (Precedes field direction) := by
  rcases exists_rank plain direction with ⟨ranks, _, rank, precedes, samePath⟩
  have listed : ∀ first second : Float32 × Note,
      listedFirst field direction first second = true ↔ rank first.2 ≤ rank second.2 := by
    intro first second
    rw [listedFirst_iff plain, precedes, not_lt]
  have sorted : (ranked contents criterion field direction).Pairwise
      fun first second => listedFirst field direction first second = true := by
    apply List.pairwise_mergeSort
    · intro first second third
      rw [listed, listed, listed]
      exact le_trans
    · intro first second
      rw [Bool.or_eq_true, listed, listed]
      exact le_total _ _
  have ascending : ((ranking contents criterion field direction).map Hit.note).Pairwise
      fun first second => rank first ≤ rank second := by
    rw [map_note_ranking, List.pairwise_map]
    exact sorted.imp (listed _ _).mp
  have apart := List.pairwise_map.mp
    (ranking_paths_nodup contents criterion distinct field direction)
  refine (ascending.and apart).imp fun {first second} both => ?_
  exact (precedes first second).mpr
    (lt_of_le_of_ne both.1 fun same => both.2 (samePath first second same))

end Ranking

/-- There is one arrangement of some notes in which every note precedes those after it. -/
theorem eq_of_pairwise_precedes {field : SortField} (plain : field ≠ .relevance)
    {direction : SortDirection} {first second : List Note} (same : first.Perm second)
    (firstSorted : first.Pairwise (Precedes field direction))
    (secondSorted : second.Pairwise (Precedes field direction)) : first = second := by
  rcases exists_rank plain direction with ⟨ranks, _, rank, precedes, _⟩
  refine same.eq_of_pairwise ?_ firstSorted secondSorted
  intro one other _ _ before after
  rw [precedes] at before after
  exact absurd after (lt_asymm before)

/-! ## Pages -/

/-- A search returns one part of the ranking, and the length of all of it. -/
theorem resultsOf_eq (contents : Contents) (criterion : Criterion) (options : SearchOptions) :
    resultsOf contents criterion options =
      ⟨((ranking contents criterion options.sortField options.sortDirection).drop
        options.offset).take options.effectiveLimit,
        (selected contents.notes criterion).length⟩ := by
  rw [← length_ranking contents criterion options.sortField options.sortDirection, ranking,
    List.length_map, ← List.map_drop, ← List.map_take]
  rfl

theorem find_arranged [PatternEngine] {contents : Contents} {now : Time.Instant}
    {options : SearchOptions} {criterion : Criterion}
    (translated : optionsCriterion now options = .ok criterion) {field : SortField}
    {direction : SortDirection} {limit offset : Nat}
    (loadable : ∀ note ∈ notesToLoad contents criterion
      (options.arranged field direction limit offset), Loadable note) :
    find contents now (options.arranged field direction limit offset) =
      .ok ⟨((ranking contents criterion field direction).drop offset).take
        (options.arranged field direction limit offset).effectiveLimit,
        (selected contents.notes criterion).length⟩ := by
  have asked : optionsCriterion now (options.arranged field direction limit offset) =
      .ok criterion := translated
  rw [find_eq_resultsOf asked loadable, resultsOf_eq]
  rfl

/-- The number of notes that are selected, whether something is asked for or not. -/
theorem count_of_criterion [PatternEngine] {contents : Contents} {now : Time.Instant}
    {options : SearchOptions} {criterion : Criterion}
    (translated : optionsCriterion now options = .ok criterion) :
    count contents now options = .ok (selected contents.notes criterion).length := by
  by_cases asksNothing : options.isEmpty = true
  · rw [optionsCriterion_of_isEmpty asksNothing] at translated
    rw [count, if_pos asksNothing, ← Except.ok.inj translated, selected_everything]
  · rw [count, if_neg asksNothing, translated]
    rfl

/-- Parts of a list that follow each other make up one part. -/
theorem flatMap_pages {item : Type} (items : List item) (offset size pages : Nat) :
    (List.range pages).flatMap (fun page => (items.drop (offset + page * size)).take size) =
      (items.drop offset).take (pages * size) := by
  induction pages with
  | zero => simp
  | succ pages inductionHypothesis =>
      rw [List.range_succ, List.flatMap_append, inductionHypothesis, List.flatMap_singleton,
        Nat.succ_mul, List.take_add, List.drop_drop]

/-- Finding, counting, sorting and paging agree.  For all orders and parts of the results, the total
is what is counted, and the hits are a part of one ranking, if all notes that are loaded for them can
be loaded; otherwise the search fails, and only counting answers.  Pages that follow each other are
put together to one part of the ranking, and it holds each note that is selected once.  By a key it
is the only arrangement in which every note precedes those after it, so another index with the same
notes lists the same. -/
theorem search_agrees [PatternEngine] {contents : Contents}
    (distinct : (contents.notes.map Note.path).Nodup) {now : Time.Instant} {options : SearchOptions}
    {found : Criterion} (translated : optionsCriterion now options = .ok found) :
    (∀ field direction limit offset,
      let asked := options.arranged field direction limit offset
      count contents now asked = .ok (selected contents.notes found).length ∧
      ((∀ note ∈ notesToLoad contents found asked, Loadable note) →
        ∃ results, find contents now asked = .ok results ∧
          results.total = (selected contents.notes found).length ∧
          results.hits =
            ((ranking contents found field direction).drop offset).take asked.effectiveLimit) ∧
      ∀ note ∈ notesToLoad contents found asked, ¬Loadable note →
        ∃ fault, find contents now asked = .error fault) ∧
    (∀ field direction limit offset pages, ∀ results : Nat -> Results,
      let size := (options.arranged field direction limit offset).effectiveLimit
      (∀ page < pages, find contents now
        (options.arranged field direction limit (offset + page * size)) = .ok (results page)) →
      (List.range pages).flatMap (fun page => (results page).hits) =
        ((ranking contents found field direction).drop offset).take (pages * size)) ∧
    (∀ field direction,
      ((ranking contents found field direction).map Hit.note).Perm
        ((selected contents.notes found).map stored) ∧
      (((ranking contents found field direction).map Hit.note).map Note.path).Nodup) ∧
    (∀ field direction, field ≠ .relevance →
      ((ranking contents found field direction).map Hit.note).Pairwise
        (Precedes field direction) ∧
      ∀ listing : List Note, listing.Perm ((selected contents.notes found).map stored) →
        listing.Pairwise (Precedes field direction) →
        listing = (ranking contents found field direction).map Hit.note) ∧
    (∀ other : Contents, other.notes.Perm contents.notes →
      (∀ note ∈ selected contents.notes found, Loadable note) →
      ∀ field direction limit offset, field ≠ .relevance →
        ∃ results others,
          find contents now (options.arranged field direction limit offset) = .ok results ∧
          find other now (options.arranged field direction limit offset) = .ok others ∧
          others.total = results.total ∧
          others.hits.map Hit.note = results.hits.map Hit.note) := by
  have sorted : ∀ field direction, field ≠ .relevance →
      ((ranking contents found field direction).map Hit.note).Pairwise (Precedes field direction) :=
    fun field direction plain => ranking_pairwise contents found distinct plain direction
  refine ⟨?_, ?_, ?_, ?_, ?_⟩
  · intro field direction limit offset asked
    exact ⟨count_of_criterion translated,
      fun loadable => ⟨_, find_arranged translated loadable, rfl, rfl⟩,
      fun note member tooDeep => exists_find_fault translated member tooDeep⟩
  · intro field direction limit offset pages results size finds
    rw [← flatMap_pages]
    refine List.flatMap_congr fun page member => ?_
    rcases exists_of_find_eq_ok (finds page (List.mem_range.mp member)) with
      ⟨criterion, same, _, gives⟩
    cases translated.symm.trans same
    rw [← gives, resultsOf_eq]
    rfl
  · intro field direction
    exact ⟨ranking_perm contents found field direction,
      ranking_paths_nodup contents found distinct field direction⟩
  · intro field direction plain
    refine ⟨sorted field direction plain, fun listing perm listed => ?_⟩
    have same := perm.trans (ranking_perm contents found field direction).symm
    exact eq_of_pairwise_precedes plain same listed (sorted field direction plain)
  · intro other sameNotes loadable field direction limit offset plain
    have loadableOther : ∀ note ∈ selected other.notes found, Loadable note :=
      fun note member => loadable note ((sameNotes.filter _).mem_iff.mp member)
    refine ⟨_, _,
      find_arranged translated fun note loads =>
        loadable note (mem_selected_of_mem_notesToLoad loads),
      find_arranged translated fun note loads =>
        loadableOther note (mem_selected_of_mem_notesToLoad loads), ?_, ?_⟩
    · exact (sameNotes.filter _).length_eq
    · have otherDistinct := (sameNotes.map Note.path).nodup_iff.mpr distinct
      have sameSelected := (ranking_perm other found field direction).trans
        (((sameNotes.filter _).map stored).trans (ranking_perm contents found field direction).symm)
      have same := eq_of_pairwise_precedes plain sameSelected
        (ranking_pairwise other found otherDistinct plain direction) (sorted field direction plain)
      rw [List.map_take, List.map_drop, List.map_take, List.map_drop, same]

/-- A note without a date. -/
def undatedNote : Note :=
  Note.ofPath "a.md"

/-- A note from the first second of 2020. -/
def datedNote : Note :=
  { Note.ofPath "b.md" with created := some ⟨1577836800, 0⟩ }

/-- An index with both notes. -/
def datedAndUndated : Contents :=
  ⟨[undatedNote, datedNote], []⟩

open scoped PatternEngine

theorem dated_note_comes_first :
    ∃ results, find datedAndUndated ⟨0, 0⟩
        (SearchOptions.empty.arranged .created .descending 1 0) = .ok results ∧
      results.total = 2 ∧ results.hits.map Hit.note = [stored datedNote] := by
  have distinct : (datedAndUndated.notes.map Note.path).Nodup := by decide
  have loadable : ∀ note ∈ datedAndUndated.notes, Loadable note := by decide
  have asked : optionsCriterion ⟨0, 0⟩ .empty = .ok .everything := rfl
  rcases search_agrees distinct asked with ⟨finds, _, _, unique, _⟩
  have listing := (unique .created .descending (by decide)).2 [stored datedNote, stored undatedNote]
    (List.Perm.swap _ _ _) (List.pairwise_pair.mpr (.inl trivial))
  rcases (finds .created .descending 1 0).2.1 (loadable_of_mem_notesToLoad loadable) with
    ⟨results, found, total, hits⟩
  refine ⟨results, found, total, ?_⟩
  rw [hits, List.drop_zero, List.map_take, ← listing]
  rfl

/-- Both notes are counted, but the first of them by its path is not found alone, since the search
loads the other one as well. -/
theorem deep_note_hides_page :
    let contents : Contents := ⟨[undatedNote, deepNote], []⟩
    let asked := SearchOptions.empty.arranged .path .ascending 1 0
    (contents.notes.map Note.path).Nodup ∧ count contents ⟨0, 0⟩ asked = .ok 2 ∧
      ∃ fault, find contents ⟨0, 0⟩ asked = .error fault := by
  intro contents asked
  have translated : optionsCriterion ⟨0, 0⟩ asked = .ok .everything := rfl
  refine ⟨by decide, rfl, ?_⟩
  refine exists_find_fault translated ((mem_notesToLoad_iff_of_key (by decide) deepNote).mpr ?_)
    deepNote_not_loadable
  exact List.mem_cons_of_mem _ List.mem_cons_self

end Index
end Commonplace
