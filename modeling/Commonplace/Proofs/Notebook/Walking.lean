import Commonplace.Notebook.Walk
import Commonplace.Proofs.Notebook.Following

namespace Commonplace

/-!
# The walk through a notebook

The walk as it goes without a budget: a relation between the names that are still to be visited and
what is found in the end, with a record of the directories that are read on the way.  Every
directory that is read was not entered before, so no more are read than the tree has, and the budget
that the walk is given is never used up.
-/

namespace Notebook

open FileTree

variable {tree : FileTree}

/-! ## What an entry leads to -/

/-- An entry of a directory that leads to a note. -/
structure NoteEntry (tree : FileTree) (directory : List String) (name : String)
    (place : List String) : Prop where
  shown : isHidden name = false
  leads : tree.resolve directory name = .ok place
  isFile : tree.HasFile place
  isNote : place.getLast?.any isNoteName = true

/-- An entry of a directory that leads to a directory, with what that lists. -/
structure DirectoryEntry (tree : FileTree) (directory : List String) (name : String)
    (place : List String) (listed : List (String × FileTree)) : Prop where
  shown : isHidden name = false
  leads : tree.resolve directory name = .ok place
  isDirectory : tree.at? place = some (.directory listed)

/-- An entry of a directory that leads neither to a note nor to a directory that is to be
entered. -/
structure Passed (tree : FileTree) (directory : List String) (found : Found) (name : String) :
    Prop where
  noNote : ∀ place, ¬NoteEntry tree directory name place
  entered : ∀ place listed, DirectoryEntry tree directory name place listed →
    place ∈ found.entered

variable {directory path : List String} {found : Found} {name : String} {place : List String}
  {listed : List (String × FileTree)}

theorem NoteEntry.unique {other : List String} (first : NoteEntry tree directory name place)
    (second : NoteEntry tree directory name other) : place = other :=
  Except.ok.inj (first.leads.symm.trans second.leads)

theorem DirectoryEntry.unique {other : List String} {others : List (String × FileTree)}
    (first : DirectoryEntry tree directory name place listed)
    (second : DirectoryEntry tree directory name other others) :
    place = other ∧ listed = others := by
  cases first.leads.symm.trans second.leads
  cases first.isDirectory.symm.trans second.isDirectory
  exact ⟨rfl, rfl⟩

theorem NoteEntry.not_directoryEntry {other : List String}
    (isNote : NoteEntry tree directory name place) :
    ¬DirectoryEntry tree directory name other listed := by
  intro isDirectory
  cases isNote.leads.symm.trans isDirectory.leads
  exact isNote.isFile.not_hasDirectory ⟨listed, isDirectory.isDirectory⟩

theorem placeOf_eq_some_iff : placeOf tree directory name = some place ↔
    tree.resolve directory name = .ok place := by
  rw [placeOf]
  cases tree.resolve directory name with
  | error fault => exact ⟨nofun, nofun⟩
  | ok there => rw [Option.some.injEq, Except.ok.injEq]

theorem Passed.of_hidden (hidden : isHidden name = true) : Passed tree directory found name where
  noNote _ isNote := absurd (hidden.symm.trans isNote.shown) Bool.noConfusion
  entered _ _ entry := absurd (hidden.symm.trans entry.shown) Bool.noConfusion

theorem Passed.of_nowhere (nowhere : placeOf tree directory name = none) :
    Passed tree directory found name where
  noNote _ isNote := nomatch nowhere.symm.trans (placeOf_eq_some_iff.mpr isNote.leads)
  entered _ _ entry := nomatch nowhere.symm.trans (placeOf_eq_some_iff.mpr entry.leads)

theorem Passed.of_leads (leads : tree.resolve directory name = .ok place)
    (noNote : tree.HasFile place → ¬place.getLast?.any isNoteName = true)
    (entered : tree.HasDirectory place → place ∈ found.entered) :
    Passed tree directory found name where
  noNote other isNote := by
    cases leads.symm.trans isNote.leads
    exact noNote isNote.isFile isNote.isNote
  entered other listed entry := by
    cases leads.symm.trans entry.leads
    exact entered ⟨listed, entry.isDirectory⟩

/-- What a visit to an entry can do. -/
theorem visit_cases (tree : FileTree) (enter : List String → List String → Found → Found)
    (directory path : List String) (found : Found) (name : String) :
    (∃ place, NoteEntry tree directory name place ∧
      visit tree enter directory path found name =
        { found with notes := ⟨path ++ [name], place⟩ :: found.notes }) ∨
    (∃ place listed, DirectoryEntry tree directory name place listed ∧ place ∉ found.entered ∧
      visit tree enter directory path found name =
        enter place (path ++ [name]) { found with entered := place :: found.entered }) ∨
    (Passed tree directory found name ∧ visit tree enter directory path found name = found) := by
  rw [visit]
  split
  · rename_i hidden
    exact .inr (.inr ⟨.of_hidden hidden, rfl⟩)
  · rename_i notHidden
    have shown := Bool.eq_false_iff.mpr notHidden
    split
    · rename_i nowhere
      exact .inr (.inr ⟨.of_nowhere nowhere, rfl⟩)
    · rename_i place isPlace
      have leads := placeOf_eq_some_iff.mp isPlace
      split
      · rename_i listed isDirectory
        split
        · rename_i entered
          refine .inr (.inr ⟨.of_leads leads (fun isFile => ?_) fun _ => ?_, rfl⟩)
          · exact absurd ⟨listed, isDirectory⟩ isFile.not_hasDirectory
          · exact List.contains_iff_mem.mp entered
        · rename_i fresh
          refine .inr (.inl ⟨place, listed, ⟨shown, leads, isDirectory⟩, ?_, rfl⟩)
          exact fun entered => fresh (List.contains_iff_mem.mpr entered)
      · rename_i bytes changed isFile
        have hasFile : tree.HasFile place := ⟨bytes, changed, isFile⟩
        split
        · rename_i isNote
          exact .inl ⟨place, ⟨shown, leads, hasFile, isNote⟩, rfl⟩
        · rename_i noNote
          refine .inr (.inr ⟨.of_leads leads (fun _ => noNote) fun isDirectory => ?_, rfl⟩)
          exact absurd isDirectory hasFile.not_hasDirectory
      · rename_i noDirectory noFile
        refine .inr (.inr ⟨.of_leads leads ?_ ?_, rfl⟩)
        · rintro ⟨bytes, changed, isFile⟩
          exact absurd isFile (noFile bytes changed)
        · rintro ⟨listed, isDirectory⟩
          exact absurd isDirectory (noDirectory listed)

/-! ## The walk without a budget -/

/-- `Visits tree directory path names found reads final`: from what is `found`, the walk through the
`names` of a directory comes to what is found in the `final` end, and reads the directories `reads`
on the way. -/
inductive Visits (tree : FileTree) : (directory path : List String) → (names : List String) →
    (found : Found) → (reads : List (List String)) → (final : Found) → Prop where
  | done {directory path : List String} {found : Found} :
      Visits tree directory path [] found [] found
  | pass {directory path : List String} {name : String} {names : List String}
      {found final : Found} {reads : List (List String)}
      (isPassed : Passed tree directory found name)
      (later : Visits tree directory path names found reads final) :
      Visits tree directory path (name :: names) found reads final
  | note {directory path place : List String} {name : String} {names : List String}
      {found final : Found} {reads : List (List String)}
      (entry : NoteEntry tree directory name place)
      (later : Visits tree directory path names
        { found with notes := ⟨path ++ [name], place⟩ :: found.notes } reads final) :
      Visits tree directory path (name :: names) found reads final
  | enter {directory path place : List String} {name : String} {names : List String}
      {listed : List (String × FileTree)} {found between final : Found}
      {inner outer : List (List String)}
      (entry : DirectoryEntry tree directory name place listed) (fresh : place ∉ found.entered)
      (inside : Visits tree place (path ++ [name]) (listed.map Prod.fst)
        { found with entered := place :: found.entered } inner between)
      (later : Visits tree directory path names between outer final) :
      Visits tree directory path (name :: names) found (place :: (inner ++ outer)) final

variable {names : List String} {final : Found} {reads : List (List String)}

/-- There is only one way to walk. -/
theorem Visits.unique {otherFinal : Found} {otherReads : List (List String)}
    (first : Visits tree directory path names found reads final)
    (second : Visits tree directory path names found otherReads otherFinal) :
    reads = otherReads ∧ final = otherFinal := by
  induction first generalizing otherReads otherFinal with
  | done =>
      cases second
      exact ⟨rfl, rfl⟩
  | pass isPassed _ inductionHypothesis =>
      cases second with
      | pass _ later => exact inductionHypothesis later
      | note entry => exact absurd entry (isPassed.noNote _)
      | enter entry fresh => exact absurd (isPassed.entered _ _ entry) fresh
  | note entry _ inductionHypothesis =>
      cases second with
      | pass isPassed => exact absurd entry (isPassed.noNote _)
      | note other later =>
          cases entry.unique other
          exact inductionHypothesis later
      | enter other => exact absurd other entry.not_directoryEntry
  | enter entry fresh _ _ insideHypothesis laterHypothesis =>
      cases second with
      | pass isPassed => exact absurd (isPassed.entered _ _ entry) fresh
      | note other => exact absurd entry other.not_directoryEntry
      | enter other _ inside later =>
          rcases entry.unique other with ⟨rfl, rfl⟩
          rcases insideHypothesis inside with ⟨rfl, rfl⟩
          rcases laterHypothesis later with ⟨rfl, rfl⟩
          exact ⟨rfl, rfl⟩

/-- What is entered in the end is what was entered before, and what is read. -/
theorem Visits.entered_eq (visits : Visits tree directory path names found reads final) :
    final.entered = reads.reverse ++ found.entered := by
  induction visits with
  | done => rfl
  | pass _ _ inductionHypothesis => exact inductionHypothesis
  | note _ _ inductionHypothesis => exact inductionHypothesis
  | enter _ _ _ _ insideHypothesis laterHypothesis =>
      rw [laterHypothesis, insideHypothesis, List.reverse_cons, List.reverse_append,
        List.append_assoc, List.append_assoc, List.singleton_append]

/-! ## The budget -/

/-- The entered directories are directories, and no two of them are the same. -/
structure Found.Sound (tree : FileTree) (found : Found) : Prop where
  apart : found.entered.Nodup
  directories : ∀ place ∈ found.entered, tree.HasDirectory place

theorem Found.Sound.enter (sound : found.Sound tree)
    (entry : DirectoryEntry tree directory name place listed) (fresh : place ∉ found.entered) :
    Found.Sound tree { found with entered := place :: found.entered } where
  apart := List.nodup_cons.mpr ⟨fresh, sound.apart⟩
  directories := List.forall_mem_cons.mpr ⟨⟨listed, entry.isDirectory⟩, sound.directories⟩

/-- A walk only enters directories, and none that was entered before. -/
theorem Visits.sound (visits : Visits tree directory path names found reads final)
    (sound : found.Sound tree) : final.Sound tree := by
  induction visits with
  | done => exact sound
  | pass _ _ inductionHypothesis => exact inductionHypothesis sound
  | note _ _ inductionHypothesis => exact inductionHypothesis ⟨sound.apart, sound.directories⟩
  | enter entry fresh _ _ insideHypothesis laterHypothesis =>
      exact laterHypothesis (insideHypothesis (sound.enter entry fresh))

theorem walk_succ (budget : Nat) (path : List String) (found : Found)
    (isDirectory : tree.at? directory = some (.directory listed)) :
    walk tree (budget + 1) directory path found =
      (listed.map Prod.fst).foldl (visit tree (walk tree budget) directory path) found := by
  rw [walk, isDirectory]
  rfl

/-- A budget of all directories that were not entered before is enough. -/
theorem exists_visits_foldl (budget : Nat) (directory path names : List String) (found : Found)
    (sound : found.Sound tree) (enough : tree.directoryCount ≤ budget + found.entered.length) :
    ∃ reads, Visits tree directory path names found reads
      (names.foldl (visit tree (walk tree budget) directory path) found) := by
  match names with
  | [] => exact ⟨[], .done⟩
  | name :: names =>
      rw [List.foldl_cons]
      rcases visit_cases tree (walk tree budget) directory path found name with
        ⟨place, entry, same⟩ | ⟨place, listed, entry, fresh, same⟩ | ⟨isPassed, same⟩
      · rw [same]
        rcases exists_visits_foldl budget directory path names
          { found with notes := ⟨path ++ [name], place⟩ :: found.notes }
          ⟨sound.apart, sound.directories⟩ enough with ⟨reads, later⟩
        exact ⟨reads, .note entry later⟩
      · have entered := sound.enter entry fresh
        have room := length_le_directoryCount entered.apart entered.directories
        rw [List.length_cons] at room
        obtain ⟨less, isLess⟩ : ∃ less, budget = less + 1 :=
          Nat.exists_eq_succ_of_ne_zero (by omega)
        have enters := walk_succ less (path ++ [name])
          { found with entered := place :: found.entered } entry.isDirectory
        rcases exists_visits_foldl less place (path ++ [name]) (listed.map Prod.fst) _
          entered (by rw [List.length_cons]; omega) with ⟨inner, inside⟩
        rw [← enters, ← isLess, ← same] at inside
        have longer := congrArg List.length inside.entered_eq
        rw [List.length_append, List.length_cons] at longer
        rcases exists_visits_foldl budget directory path names _ (inside.sound entered)
          (by omega) with ⟨outer, later⟩
        exact ⟨place :: (inner ++ outer), .enter entry fresh inside later⟩
      · rw [same]
        rcases exists_visits_foldl budget directory path names found sound enough with
          ⟨reads, later⟩
        exact ⟨reads, .pass isPassed later⟩
termination_by (budget, names.length)

theorem Found.sound_root (isDirectory : tree.at? directory = some (.directory listed)) :
    Found.Sound tree ⟨[directory], []⟩ :=
  ⟨List.nodup_singleton directory, List.forall_mem_singleton.mpr ⟨listed, isDirectory⟩⟩

/-- The walk of a notebook comes to an end before its budget does, and reads only directories, none
of them twice. -/
theorem exists_visits_walk (isDirectory : tree.at? directory = some (.directory listed)) :
    ∃ reads, Visits tree directory [] (listed.map Prod.fst) ⟨[directory], []⟩ reads
        (walk tree (tree.directoryCount + 1) directory [] ⟨[directory], []⟩) ∧
      (directory :: reads).Nodup ∧ ∀ place ∈ directory :: reads, tree.HasDirectory place := by
  have sound := Found.sound_root isDirectory
  rw [walk_succ _ _ _ isDirectory]
  rcases exists_visits_foldl tree.directoryCount directory [] (listed.map Prod.fst) _ sound
    (Nat.le_add_right _ _) with ⟨reads, visits⟩
  have entered := visits.sound sound
  have sameEntered := ((List.reverse_perm reads).append_right [directory]).trans
    (List.perm_append_singleton directory reads)
  rw [← visits.entered_eq] at sameEntered
  exact ⟨reads, visits, sameEntered.nodup_iff.mp entered.apart, fun place member =>
    entered.directories place (sameEntered.mem_iff.mpr member)⟩

end Notebook

end Commonplace
