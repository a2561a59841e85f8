import Commonplace.Index.Store
import Mathlib.Data.List.Basic
import Mathlib.Data.List.Nodup
import Mathlib.Data.List.TakeWhile

namespace Commonplace
namespace Index

/-!
# What a commit publishes

A writer at rest has carried out every removal in all of its segments, and the removals that still
lie ahead of the next segment have smaller numbers than anything that it will do.  From such a
writer, a removal and an addition publish what they ask for.

A rebuild restarts the count, so a removal that lies ahead of it may find itself in front of notes
with smaller numbers.  A writer is settled when this cannot happen.  From a settled writer a rebuild
publishes exactly the notes of its source.  From any other one, some source loses a note.
-/

/-- Whether a path is short enough to be indexed. -/
def Indexable (path : String) : Prop :=
  path.utf8ByteSize ≤ largestValue

instance (path : String) : Decidable (Indexable path) :=
  inferInstanceAs (Decidable (path.utf8ByteSize ≤ largestValue))

theorem hasPath_eq_true_iff (path : String) (note : Note) :
    hasPath path note = true ↔ note.path = path ∧ Indexable path := by
  simp only [hasPath, ValueSlot.terms, ValueSlot.values, List.contains_iff_mem, List.mem_filter,
    List.mem_singleton, decide_eq_true_eq, Indexable]
  constructor
  · rintro ⟨same, short⟩
    exact ⟨same.symm, short⟩
  · rintro ⟨same, short⟩
    exact ⟨same.symm, short⟩

/-- An indexable path finds exactly the notes that carry it. -/
theorem hasPath_of_indexable {path : String} (short : Indexable path) (note : Note) :
    hasPath path note = (note.path == path) := by
  rw [Bool.eq_iff_iff, hasPath_eq_true_iff, beq_iff_eq]
  exact ⟨fun found => found.1, fun same => ⟨same, short⟩⟩

namespace Segment

/-- A segment whose removals are all due has carried them all out. -/
theorem checked_of_due {number : Nat} {segment : Segment}
    (due : ∀ removal ∈ segment.ahead, removal.number ≤ number) :
    (segment.checked number).ahead = [] ∧
      (segment.checked number).notes =
        segment.notes.filter fun note => !segment.ahead.any (Removal.concerns note) := by
  have takeAll : segment.ahead.takeWhile (fun removal => removal.number ≤ number) =
      segment.ahead := by
    rw [List.takeWhile_eq_self_iff]
    intro removal member
    exact decide_eq_true (due removal member)
  have dropAll : segment.ahead.dropWhile (fun removal => removal.number ≤ number) = [] := by
    rw [List.dropWhile_eq_nil_iff]
    intro removal member
    exact decide_eq_true (due removal member)
  simp only [checked, takeAll, dropAll, and_self]

/-- Checking a segment never brings a note back. -/
theorem checked_notes_subset (number : Nat) (segment : Segment) :
    (segment.checked number).notes ⊆ segment.notes := by
  intro note member
  exact (List.mem_filter.mp member).1

/-- The notes of a new segment are kept when no removal in front of it has a greater number than
the first of them. -/
theorem ofNotes_of_earlier {ahead : List Removal} {first : Nat} {notes : List Note}
    (someNote : notes ≠ []) (earlier : ∀ removal ∈ ahead, removal.number ≤ first) :
    (ofNotes ahead first notes).notes = notes ∧ (ofNotes ahead first notes).ahead = [] := by
  have positive : 0 < notes.length := List.length_pos_iff.mpr someNote
  constructor
  · have keepAll : (notes.zipIdx first).filter (fun entry =>
        !(ahead.takeWhile fun removal => removal.number ≤ first + notes.length - 1).any
          fun removal => removal.concerns entry.1 && entry.2 < removal.number) =
        notes.zipIdx first := by
      rw [List.filter_eq_self]
      intro entry member
      have numbered : first ≤ entry.2 := (List.mem_zipIdx member).1
      rw [Bool.not_eq_true', List.any_eq_false]
      intro removal due
      have small := earlier removal ((List.takeWhile_subset _) due)
      simp only [Bool.and_eq_true, decide_eq_true_eq, not_and]
      intro _
      omega
    simp only [ofNotes]
    rw [keepAll, List.zipIdx_map_fst]
  · simp only [ofNotes]
    rw [List.dropWhile_eq_nil_iff]
    intro removal member
    have small := earlier removal member
    simp only [decide_eq_true_eq]
    omega

end Segment

namespace Writer

/-- A writer between two commits that has no removal left to carry out. -/
structure AtRest (writer : Writer) : Prop where
  carriedOut : ∀ segment ∈ writer.segments, segment.ahead = []
  unread_subset : writer.unread ⊆ writer.ahead
  ahead_earlier : ∀ removal ∈ writer.ahead, removal.number < writer.next
  first_le_next : writer.first ≤ writer.next

/-- A writer that may be cleared without its older removals reaching what comes next. -/
def Settled (writer : Writer) : Prop :=
  ∀ removal ∈ writer.ahead, removal.number ≤ writer.first

instance (writer : Writer) : Decidable writer.Settled :=
  inferInstanceAs (Decidable (∀ removal ∈ writer.ahead, removal.number ≤ writer.first))

/-- The notes that a writer holds. -/
def notes (writer : Writer) : List Note :=
  writer.contents.notes

theorem notes_eq (writer : Writer) : writer.notes = writer.segments.flatMap Segment.notes := rfl

@[simp] theorem notes_start (number : Nat) (contents : Contents) :
    (start number contents).notes = contents.notes := by
  cases held : contents.notes <;> simp [notes, Writer.contents, start, held]

theorem atRest_start (number : Nat) (contents : Contents) : (start number contents).AtRest where
  carriedOut := by
    intro segment member
    cases held : contents.notes.isEmpty
    · simp only [start, held, Bool.false_eq_true, if_false, List.mem_singleton] at member
      rw [member]
    · simp only [start, held, if_true, List.not_mem_nil] at member
  unread_subset := List.nil_subset _
  ahead_earlier := by
    intro removal member
    cases member
  first_le_next := Nat.le_refl _

/-- Dropping empty segments drops no note. -/
theorem flatMap_filter_notes (segments : List Segment) :
    (segments.filter fun segment => !segment.notes.isEmpty).flatMap Segment.notes =
      segments.flatMap Segment.notes := by
  induction segments with
  | nil => rfl
  | cons segment rest inductionHypothesis =>
      cases held : segment.notes with
      | nil => simp [held, inductionHypothesis]
      | cons note others => simp [held, inductionHypothesis]

theorem notes_commit (writer : Writer) :
    writer.commit.notes =
      writer.segments.flatMap fun segment => (segment.checked writer.next).notes := by
  simp only [notes_eq, commit, flatMap_filter_notes, List.flatMap_map]

/-- A commit publishes no note that was not written. -/
theorem notes_commit_subset (writer : Writer) : writer.commit.notes ⊆ writer.notes := by
  intro note member
  rw [notes_commit, List.mem_flatMap] at member
  rcases member with ⟨segment, segmentMember, noteMember⟩
  rw [notes_eq, List.mem_flatMap]
  exact ⟨segment, segmentMember, Segment.checked_notes_subset _ _ noteMember⟩

/-- What has been read is taken from the unread removals and never put back. -/
theorem unreadAfter_subset (rest unread : List Removal) :
    Removal.unreadAfter rest unread ⊆ unread := by
  intro removal member
  unfold Removal.unreadAfter at member
  split at member
  · cases member
  · exact member

theorem foldl_unreadAfter_subset (segments : List Segment) (unread : List Removal) :
    segments.foldl (fun unread segment => Removal.unreadAfter segment.ahead unread) unread ⊆
      unread := by
  induction segments generalizing unread with
  | nil => exact List.Subset.refl _
  | cons segment rest inductionHypothesis =>
      exact List.Subset.trans (inductionHypothesis _) (unreadAfter_subset _ _)

/-- A commit brings a writer to rest when every removal in its log is older than the commit. -/
theorem atRest_commit {writer : Writer}
    (due : ∀ segment ∈ writer.segments, ∀ removal ∈ segment.ahead, removal.number ≤ writer.next)
    (unreadDue : ∀ removal ∈ writer.unread, removal.number ≤ writer.next)
    (first_le : writer.first ≤ writer.next) : writer.commit.AtRest where
  carriedOut := by
    intro segment member
    simp only [commit, List.mem_filter, List.mem_map] at member
    rcases member with ⟨⟨before, beforeMember, rfl⟩, _⟩
    exact (Segment.checked_of_due (due before beforeMember)).1
  unread_subset := foldl_unreadAfter_subset _ _
  ahead_earlier := by
    intro removal member
    have old := unreadDue removal member
    change removal.number < writer.next + 2
    omega
  first_le_next := by
    change writer.first ≤ writer.next + 2
    omega

@[simp] theorem unreadAfter_nil (unread : List Removal) : Removal.unreadAfter [] unread = [] := by
  simp [Removal.unreadAfter]

/-! ## Removing and adding -/

/-- The removal that a writer enters next. -/
def nextRemoval (writer : Writer) (path : String) : Removal :=
  ⟨writer.next, path⟩

/-- After a removal from rest, that removal alone lies ahead of every segment. -/
theorem ahead_of_mem_remove {writer : Writer} (rest : writer.AtRest) (path : String)
    {segment : Segment} (member : segment ∈ (writer.remove path).segments) :
    segment.ahead = [writer.nextRemoval path] := by
  simp only [remove, List.mem_map] at member
  rcases member with ⟨before, beforeMember, rfl⟩
  simp only [rest.carriedOut before beforeMember, List.nil_append, nextRemoval]

/-- The log of a writer that entered a removal from rest is older than what it does next. -/
theorem ahead_remove_earlier {writer : Writer} (rest : writer.AtRest) (path : String) :
    ∀ removal ∈ (writer.remove path).ahead, removal.number < (writer.remove path).next := by
  intro removal member
  change removal ∈ writer.ahead ++ [writer.nextRemoval path] at member
  change removal.number < writer.next + 1
  rcases List.mem_append.mp member with old | new
  · have earlier := rest.ahead_earlier removal old
    omega
  · rw [List.mem_singleton.mp new]
    exact Nat.lt_succ_self _

theorem unread_remove_earlier {writer : Writer} (rest : writer.AtRest) (path : String) :
    ∀ removal ∈ (writer.remove path).unread, removal.number < (writer.remove path).next := by
  intro removal member
  apply ahead_remove_earlier rest path removal
  change removal ∈ writer.unread ++ [writer.nextRemoval path] at member
  change removal ∈ writer.ahead ++ [writer.nextRemoval path]
  rcases List.mem_append.mp member with old | new
  · exact List.mem_append_left _ (rest.unread_subset old)
  · exact List.mem_append_right _ new

/-- The segments of a writer after a removal from rest, checked, keep the notes with other paths. -/
theorem flatMap_checked_remove {writer : Writer} (rest : writer.AtRest) (path : String)
    {number : Nat} (late : writer.next ≤ number) :
    ((writer.remove path).segments.flatMap fun segment => (segment.checked number).notes) =
      writer.notes.filter fun note => !hasPath path note := by
  have each : ∀ segment ∈ writer.segments,
      (({ segment with ahead := segment.ahead ++ [writer.nextRemoval path] } : Segment).checked
        number).notes = segment.notes.filter fun note => !hasPath path note := by
    intro segment member
    rw [rest.carriedOut segment member, List.nil_append]
    have due : ∀ removal ∈ [writer.nextRemoval path], removal.number ≤ number := by
      intro removal removalMember
      rw [List.mem_singleton.mp removalMember]
      exact late
    rw [(Segment.checked_of_due due).2]
    simp only [List.any_cons, List.any_nil, Bool.or_false, Removal.concerns, nextRemoval]
  change ((writer.segments.map fun segment =>
    ({ segment with ahead := segment.ahead ++ [writer.nextRemoval path] } : Segment)).flatMap
      fun segment => (segment.checked number).notes) = _
  rw [List.flatMap_map, notes_eq, List.filter_flatMap]
  exact List.flatMap_congr each

theorem atRest_commit_remove {writer : Writer} (rest : writer.AtRest) (path : String) :
    (writer.remove path).commit.AtRest := by
  apply atRest_commit
  · intro segment member removal removalMember
    rw [ahead_of_mem_remove rest path member] at removalMember
    rw [List.mem_singleton.mp removalMember]
    exact Nat.le_succ _
  · intro removal member
    exact Nat.le_of_lt (unread_remove_earlier rest path removal member)
  · exact Nat.le_succ_of_le rest.first_le_next

/-- Removing a path publishes the notes with other paths. -/
theorem notes_commit_remove {writer : Writer} (rest : writer.AtRest) (path : String) :
    (writer.remove path).commit.notes = writer.notes.filter fun note => !hasPath path note := by
  rw [notes_commit]
  exact flatMap_checked_remove rest path (Nat.le_succ _)

/-- Notes that are added when no removal ahead is as new as they are make up a segment that has
nothing in front of it. -/
theorem add_of_earlier {writer : Writer} {notes : List Note} (someNote : notes ≠ [])
    (earlier : ∀ removal ∈ writer.ahead, removal.number < writer.next) :
    writer.add notes =
      { writer with
        next := writer.next + notes.length + 1
        unread := []
        segments := writer.segments ++ [Segment.ofNotes [] writer.next notes] } := by
  have passed : writer.ahead.dropWhile (fun removal => removal.number < writer.next) = [] := by
    rw [List.dropWhile_eq_nil_iff]
    intro removal member
    exact decide_eq_true (earlier removal member)
  have filled : notes.isEmpty = false := List.isEmpty_eq_false_iff.mpr someNote
  simp only [add, filled, Bool.false_eq_true, if_false, passed, unreadAfter_nil]
  congr 1

/-- The state in which a note takes the place of those with its path, before the commit. -/
theorem add_remove_eq {writer : Writer} (rest : writer.AtRest) (note : Note) :
    (writer.remove note.path).add [note] =
      { writer.remove note.path with
        next := writer.next + 3
        unread := []
        segments := (writer.remove note.path).segments ++
          [Segment.ofNotes [] (writer.next + 1) [note]] } :=
  add_of_earlier (List.cons_ne_nil _ _) (ahead_remove_earlier rest note.path)

theorem atRest_commit_add {writer : Writer} (rest : writer.AtRest) (note : Note) :
    ((writer.remove note.path).add [note]).commit.AtRest := by
  rw [add_remove_eq rest note]
  apply atRest_commit
  · intro segment member removal removalMember
    rcases List.mem_append.mp member with old | new
    · rw [ahead_of_mem_remove rest note.path old] at removalMember
      rw [List.mem_singleton.mp removalMember]
      exact Nat.le_add_right writer.next 3
    · rw [List.mem_singleton.mp new] at removalMember
      cases removalMember
  · intro removal member
    cases member
  · exact Nat.le_add_right_of_le rest.first_le_next

/-- Adding a note publishes it in place of the notes with its path. -/
theorem notes_commit_add {writer : Writer} (rest : writer.AtRest) (note : Note) :
    ((writer.remove note.path).add [note]).commit.notes =
      (writer.notes.filter fun other => !hasPath note.path other) ++ [note] := by
  rw [notes_commit, add_remove_eq rest note, List.flatMap_append]
  rw [flatMap_checked_remove rest note.path (Nat.le_add_right writer.next 3)]
  rfl

/-! ## Rebuilding -/

/-- The removals that a writer finds in front of the notes of a rebuild. -/
def aheadOfRebuild (writer : Writer) : List Removal :=
  writer.ahead.dropWhile fun removal => removal.number < writer.first

theorem aheadOfRebuild_subset (writer : Writer) : writer.aheadOfRebuild ⊆ writer.ahead :=
  (List.dropWhile_suffix _).subset

/-- A removal that is newer than the start of the count lies in front of a rebuild. -/
theorem mem_aheadOfRebuild {writer : Writer} {removal : Removal}
    (member : removal ∈ writer.ahead) (newer : writer.first < removal.number) :
    removal ∈ writer.aheadOfRebuild := by
  have split := List.takeWhile_append_dropWhile
    (p := fun other : Removal => other.number < writer.first) (l := writer.ahead)
  rw [← split] at member
  rcases List.mem_append.mp member with passed | kept
  · have earlier := List.mem_takeWhile_imp passed
    simp only [decide_eq_true_eq] at earlier
    omega
  · exact kept

/-- The notes of a rebuild make up one segment, numbered from the start of the count. -/
theorem add_clear (writer : Writer) {notes : List Note} (someNote : notes ≠ []) :
    writer.clear.add notes =
      { writer with
        next := writer.first + notes.length + 1
        unread := Removal.unreadAfter
          (Segment.ofNotes writer.aheadOfRebuild writer.first notes).ahead
          (Removal.unreadAfter writer.aheadOfRebuild writer.unread)
        segments := [Segment.ofNotes writer.aheadOfRebuild writer.first notes] } := by
  have filled : notes.isEmpty = false := List.isEmpty_eq_false_iff.mpr someNote
  simp only [add, filled, Bool.false_eq_true, if_false]
  rfl

/-- A writer that is cleared and filled from a settled state. -/
theorem add_clear_of_settled {writer : Writer} (settled : writer.Settled) {notes : List Note}
    (someNote : notes ≠ []) :
    ∃ segment : Segment, segment.notes = notes ∧ segment.ahead = [] ∧
      writer.clear.add notes =
        { writer with
          next := writer.first + notes.length + 1
          unread := []
          segments := [segment] } := by
  have small : ∀ removal ∈ writer.aheadOfRebuild, removal.number ≤ writer.first :=
    fun removal member => settled removal (writer.aheadOfRebuild_subset member)
  have kept := Segment.ofNotes_of_earlier someNote small
  refine ⟨_, kept.1, kept.2, ?_⟩
  rw [add_clear writer someNote, kept.2, unreadAfter_nil]

theorem add_clear_nil (writer : Writer) : writer.clear.add [] = writer.clear := rfl

theorem atRest_commit_rebuild {writer : Writer} (rest : writer.AtRest) (settled : writer.Settled)
    (notes : List Note) : (writer.clear.add notes).commit.AtRest := by
  by_cases someNote : notes = []
  · subst someNote
    rw [add_clear_nil]
    apply atRest_commit
    · intro segment member
      cases member
    · intro removal member
      exact settled removal (rest.unread_subset member)
    · exact Nat.le_refl writer.first
  · rcases add_clear_of_settled settled someNote with ⟨segment, _, nothingAhead, filled⟩
    rw [filled]
    apply atRest_commit
    · intro other member removal removalMember
      rw [List.mem_singleton.mp member, nothingAhead] at removalMember
      cases removalMember
    · intro removal member
      cases member
    · change writer.first ≤ writer.first + notes.length + 1
      omega

/-- A rebuild from a settled state publishes exactly the notes of its source. -/
theorem notes_commit_rebuild {writer : Writer} (settled : writer.Settled) (notes : List Note) :
    (writer.clear.add notes).commit.notes = notes := by
  by_cases someNote : notes = []
  · subst someNote
    rfl
  · rcases add_clear_of_settled settled someNote with ⟨segment, sameNotes, nothingAhead, filled⟩
    rw [notes_commit, filled]
    simp only [List.flatMap_cons, List.flatMap_nil, List.append_nil]
    have due : ∀ removal ∈ segment.ahead, removal.number ≤ writer.first + notes.length + 1 := by
      intro removal member
      rw [nothingAhead] at member
      cases member
    rw [(Segment.checked_of_due due).2, nothingAhead, sameNotes]
    simp

/-! ## A removal that a rebuild runs into -/

/-- The path of a note that only fills up a source: longer than a given one. -/
def fillerPath (path : String) (index : Nat) : String :=
  String.ofList (List.replicate (path.length + 1 + index) 'a')

theorem length_fillerPath (path : String) (index : Nat) :
    (fillerPath path index).length = path.length + 1 + index := by
  simp [fillerPath]

theorem fillerPath_ne (path : String) (index : Nat) : fillerPath path index ≠ path := by
  intro same
  have lengths := length_fillerPath path index
  rw [same] at lengths
  omega

/-- A source that starts with a path and goes on with as many other ones as asked for. -/
def fillingSource (path : String) (count : Nat) : List Note :=
  Note.ofPath path :: (List.range count).map fun index => Note.ofPath (fillerPath path index)

theorem fillingSource_ne_nil (path : String) (count : Nat) : fillingSource path count ≠ [] :=
  List.cons_ne_nil _ _

theorem length_fillingSource (path : String) (count : Nat) :
    (fillingSource path count).length = count + 1 := by
  simp [fillingSource]

theorem paths_fillingSource_nodup (path : String) (count : Nat) :
    ((fillingSource path count).map Note.path).Nodup := by
  simp only [fillingSource, List.map_cons, List.map_map, List.nodup_cons]
  constructor
  · intro member
    rcases List.mem_map.mp member with ⟨index, _, same⟩
    exact fillerPath_ne path index same
  · apply List.Nodup.map _ List.nodup_range
    intro first second same
    have lengths := congrArg String.length same
    simp only [Function.comp_apply, Note.ofPath, length_fillerPath] at lengths
    omega

/-- A new segment keeps no note with a path whose removal is due and newer than the first note, when
the first note alone has that path. -/
theorem ofNotes_loses {ahead : List Removal} {first : Nat} {path : String} {count : Nat}
    {removal : Removal} (member : removal ∈ ahead) (newer : first < removal.number)
    (same : removal.path = path) (due : ∀ other ∈ ahead, other.number ≤ first + count) :
    ∀ note ∈ (Segment.ofNotes ahead first (fillingSource path count)).notes,
      hasPath path note = false := by
  intro note kept
  rw [Bool.eq_false_iff]
  intro found
  have dueAll : ahead.takeWhile (fun other =>
      other.number ≤ first + (fillingSource path count).length - 1) = ahead := by
    rw [List.takeWhile_eq_self_iff]
    intro other otherMember
    have bound := due other otherMember
    rw [length_fillingSource]
    simp only [decide_eq_true_eq]
    omega
  simp only [Segment.ofNotes, dueAll, List.mem_map, List.mem_filter] at kept
  rcases kept with ⟨⟨other, number⟩, ⟨numbered, notRemoved⟩, rfl⟩
  rw [Bool.not_eq_true', List.any_eq_false] at notRemoved
  apply notRemoved removal member
  have concerned : removal.concerns other = true := by
    rw [Removal.concerns, same]
    exact found
  simp only [concerned, Bool.true_and, decide_eq_true_eq]
  -- The note with the path is the first one, so its number is the smallest of all.
  rw [fillingSource, List.zipIdx_cons, List.mem_cons] at numbered
  rcases numbered with atFront | filler
  · rw [(Prod.mk.inj atFront).2]
    exact newer
  · have otherMember : other ∈ (List.range count).map fun index =>
        Note.ofPath (fillerPath path index) := by
      have inZip := List.mem_map_of_mem (f := Prod.fst) filler
      rw [List.zipIdx_map_fst] at inZip
      exact inZip
    rcases List.mem_map.mp otherMember with ⟨index, _, rfl⟩
    exact absurd ((hasPath_eq_true_iff path _).mp found).1 (fillerPath_ne path index)

/-- A bound for the numbers of some removals. -/
theorem exists_number_bound (removals : List Removal) :
    ∃ bound, ∀ removal ∈ removals, removal.number ≤ bound := by
  induction removals with
  | nil => exact ⟨0, fun removal member => nomatch member⟩
  | cons head tail inductionHypothesis =>
      rcases inductionHypothesis with ⟨bound, small⟩
      refine ⟨max head.number bound, ?_⟩
      intro removal member
      rcases List.mem_cons.mp member with rfl | later
      · exact Nat.le_max_left _ _
      · exact Nat.le_trans (small removal later) (Nat.le_max_right _ _)

/-- A writer that is not settled loses a note of some source, although the paths of the source are
distinct. -/
theorem exists_source_lost {writer : Writer} {removal : Removal}
    (member : removal ∈ writer.ahead) (newer : writer.first < removal.number) :
    ∃ source : List Note, (source.map Note.path).Nodup ∧ Note.ofPath removal.path ∈ source ∧
      ∀ note ∈ (writer.clear.add source).commit.notes, hasPath removal.path note = false := by
  rcases exists_number_bound writer.ahead with ⟨bound, small⟩
  refine ⟨fillingSource removal.path bound, paths_fillingSource_nodup _ _,
    List.mem_cons_self, ?_⟩
  intro note published
  have written := notes_commit_subset _ published
  rw [notes_eq, add_clear writer (fillingSource_ne_nil _ _)] at written
  simp only [List.flatMap_cons, List.flatMap_nil, List.append_nil] at written
  have due : ∀ other ∈ writer.aheadOfRebuild, other.number ≤ writer.first + bound := by
    intro other otherMember
    exact Nat.le_trans (small other (writer.aheadOfRebuild_subset otherMember))
      (Nat.le_add_left _ _)
  exact ofNotes_loses (mem_aheadOfRebuild member newer) newer rfl due note written

end Writer

end Index
end Commonplace
