import Commonplace.Proofs.Notebook.Listing
import Mathlib.Data.List.Sort
import Mathlib.Data.String.Basic

namespace Commonplace

/-!
# The discovery of notes

The notes of a notebook come in the order of their paths, name by name, each once.  However the
links of the notebook lie, the walk that finds them ends, reads no directory twice and enters
nothing hidden.  Where no link leads to a directory, the paths are exactly those that lead to a note
without hidden names, so it does not matter in which order directories list their entries.
-/

namespace Notebook

open FileTree

variable {tree other : FileTree} {root : List String} {files : List NoteFile}

/-! ## The order of paths -/

/-- Paths are compared name by name. -/
theorem compare_eq_lt_iff {first second : List String} :
    compare first second = .lt ↔ first < second := by
  induction first generalizing second with
  | nil =>
      cases second with
      | nil => simp
      | cons name rest => simp
  | cons name rest inductionHypothesis =>
      cases second with
      | nil => simp
      | cons otherName otherRest =>
          rw [List.compare_cons_cons, Ordering.then_eq_lt, compare_lt_iff_lt, inductionHypothesis,
            Std.LawfulEqOrd.compare_eq_iff_eq, List.cons_lt_cons_iff]

/-- Note files in the order of their paths, no path twice. -/
def InOrder (files : List NoteFile) : Prop :=
  files.Pairwise fun first second => first.path < second.path

theorem inOrder_mergeSort (apart : (files.map NoteFile.path).Nodup) :
    InOrder (files.mergeSort fun first second => (compare first.path second.path).isLE) := by
  have total : ∀ first second : NoteFile, ((compare first.path second.path).isLE ||
      (compare second.path first.path).isLE) = true := by
    intro first second
    rw [Std.OrientedOrd.eq_swap (a := second.path)]
    cases compare first.path second.path <;> rfl
  have sorted := List.pairwise_mergeSort (fun _ _ _ => Std.TransCmp.isLE_trans) total files
  have distinct : (files.mergeSort fun first second =>
      (compare first.path second.path).isLE).Pairwise fun first second =>
        first.path ≠ second.path :=
    List.pairwise_map.mp (((List.mergeSort_perm files _).map NoteFile.path).nodup_iff.mpr apart)
  refine (sorted.and distinct).imp fun {first second} both => ?_
  rcases Ordering.isLE_iff_eq_lt_or_eq_eq.mp both.1 with isLess | isSame
  · exact compare_eq_lt_iff.mp isLess
  · exact absurd (Std.LawfulEqCmp.eq_of_compare isSame) both.2

/-- Only one list in order has the same files. -/
theorem InOrder.eq_of_mem_iff {others : List NoteFile} (inOrder : InOrder files)
    (alsoInOrder : InOrder others) (same : ∀ file, file ∈ files ↔ file ∈ others) :
    files = others := by
  have : Std.Irrefl fun first second : NoteFile => first.path < second.path :=
    ⟨fun file => lt_irrefl file.path⟩
  have : Std.Antisymm fun first second : NoteFile => first.path < second.path :=
    ⟨fun _ _ before after => absurd (before.trans after) (lt_irrefl _)⟩
  exact List.Pairwise.eq_of_mem_iff inOrder alsoInOrder same

/-- Files with different paths have different keys. -/
theorem nodup_keys (apart : (files.map NoteFile.path).Nodup)
    (arePaths : ∀ file ∈ files, file.path ≠ [] ∧ ∀ name ∈ file.path, IsEntryName name) :
    (files.map NoteFile.key).Nodup := by
  have keys : files.map NoteFile.key = (files.map NoteFile.path).map pathOf := by
    rw [List.map_map]
    rfl
  rw [keys]
  refine apart.map_on fun first isFirst second isSecond same => ?_
  rcases List.mem_map.mp isFirst with ⟨file, member, rfl⟩
  rcases List.mem_map.mp isSecond with ⟨other, otherMember, rfl⟩
  rcases arePaths file member with ⟨nonempty, areNames⟩
  rcases arePaths other otherMember with ⟨otherNonempty, otherNames⟩
  exact pathOf_inj nonempty otherNonempty (fun name isName => (areNames name isName).noSlash)
    (fun name isName => (otherNames name isName).noSlash) same

/-! ## The same notebook in another order -/

theorem NoDirectoryLinks.of_holdsSame (noLinks : NoDirectoryLinks tree)
    (same : HoldsSame tree other) : NoDirectoryLinks other := by
  intro directory name target place isLink leads isDirectory
  rw [same.resolve_eq] at leads
  exact noLinks directory name target place (same.symm.isLink isLink) leads
    (same.symm.hasDirectory isDirectory)

theorem IsNoteAt.of_holdsSame {path place : List String} (isNoteAt : IsNoteAt tree root path place)
    (same : HoldsSame tree other) : IsNoteAt other root path place :=
  ⟨isNoteAt.nonempty, isNoteAt.isEntryName, isNoteAt.shown,
    (same.resolve_eq root _).trans isNoteAt.leads, same.hasFile isNoteAt.isFile, isNoteAt.isNote⟩

/-! ## Discovery -/

/-- The walk from a directory can go only one way; it reads the directories `reads`, each once, and
finds the files. -/
structure Walked (tree : FileTree) (root : List String) (reads : List (List String))
    (files : List NoteFile) : Prop where
  visits : ∃ listed final, tree.at? root = some (.directory listed) ∧ files.Perm final.notes ∧
    ∀ otherReads otherFinal,
      Visits tree root [] (listed.map Prod.fst) ⟨[root], []⟩ otherReads otherFinal ↔
        otherReads = reads ∧ otherFinal = final
  apart : (root :: reads).Nodup
  directories : ∀ place ∈ root :: reads, tree.HasDirectory place

/-- What the discovery of the notes below a directory comes to. -/
structure Discovery (tree : FileTree) (root : List String) (files : List NoteFile) : Prop where
  walked : ∃ reads, Walked tree root reads files
  inOrder : InOrder files
  keysApart : (files.map NoteFile.key).Nodup
  shown : ∀ file ∈ files, ∀ name ∈ file.path, isHidden name = false
  complete : NoDirectoryLinks tree →
    ∀ file, file ∈ files ↔ IsNoteAt tree root file.path file.place

theorem discover_eq {start : List String} {path : String}
    (leads : tree.resolve start path = .ok root) (here : tree.HasDirectory root) :
    discover tree start path false =
      .ok ((walk tree (tree.directoryCount + 1) root [] ⟨[root], []⟩).notes.mergeSort
        fun first second => (compare first.path second.path).isLE) := by
  rw [discover, leads]
  dsimp only
  rw [if_neg Bool.false_ne_true, hasDirectory_iff.mp here, if_neg Bool.false_ne_true]

theorem exists_discovery {start : List String} {path : String} (wellNamed : tree.WellNamed)
    (leads : tree.resolve start path = .ok root) (here : tree.HasDirectory root) :
    ∃ files, discover tree start path false = .ok files ∧ Discovery tree root files := by
  have isFound := discover_eq leads here
  rcases here with ⟨listed, isDirectory⟩
  rcases exists_visits_walk isDirectory with ⟨reads, visits, apart, directories⟩
  generalize walk tree (tree.directoryCount + 1) root [] ⟨[root], []⟩ = final at isFound visits
  have names := List.forall_mem_map.mpr (wellNamed.names root listed isDirectory)
  have namesApart := wellNamed.apart root listed isDirectory
  rcases visits.exists_additions wellNamed names namesApart with ⟨added, isAdded, additions⟩
  rw [List.append_nil] at isAdded
  subst isAdded
  have areBelow : ∀ file ∈ final.notes, NoteBelow tree root file.path file.place := by
    intro file member
    rcases additions.listed file member with ⟨name, -, rest, isPath, isBelow⟩
    rwa [isPath]
  have onlyWay : ∀ otherReads otherFinal,
      Visits tree root [] (listed.map Prod.fst) ⟨[root], []⟩ otherReads otherFinal ↔
        otherReads = reads ∧ otherFinal = final := by
    intro otherReads otherFinal
    refine ⟨fun others => others.unique visits, ?_⟩
    rintro ⟨rfl, rfl⟩
    exact visits
  have sameFiles := List.mergeSort_perm final.notes fun first second =>
    (compare first.path second.path).isLE
  refine ⟨_, isFound, ⟨reads, ⟨listed, final, isDirectory, sameFiles, onlyWay⟩, apart, directories⟩,
    inOrder_mergeSort additions.apart, ?_, ?_, ?_⟩
  case refine_1 =>
    refine (sameFiles.map NoteFile.key).nodup_iff.mpr (nodup_keys additions.apart ?_)
    exact fun file member => ⟨(areBelow file member).nonempty, (areBelow file member).isEntryName⟩
  case refine_2 =>
    intro file member
    exact (areBelow file (List.mem_mergeSort.mp member)).shown
  case refine_3 =>
    intro noLinks file
    rw [List.mem_mergeSort, ← noteBelow_iff noLinks ⟨listed, isDirectory⟩]
    refine ⟨areBelow file, fun isBelow => ?_⟩
    rcases isBelow.exists_listedFor isDirectory (List.nil_append _).symm with
      ⟨name, isName, isListed⟩
    exact visits.mem_notes wellNamed noLinks ⟨listed, isDirectory⟩ names namesApart
      (fun name _ => List.forall_mem_singleton.mpr not_concat_prefix_self) name isName file isListed

/-- The notes below a directory are found and listed once, in order, whatever links there are.  If no
link leads to a directory, they are those to which a path without hidden names leads, in whatever
order directories list their entries. -/
theorem discovery_lists_each_note_once (wellNamed : tree.WellNamed) (start : List String)
    (path : String) (leads : tree.resolve start path = .ok root) (here : tree.HasDirectory root) :
    ∃ files, discover tree start path false = .ok files ∧ Discovery tree root files ∧
      (NoDirectoryLinks tree → ∀ other : FileTree, HoldsSame tree other → other.WellNamed →
        discover other start path false = .ok files) := by
  rcases exists_discovery wellNamed leads here with ⟨files, isFiles, discovery⟩
  refine ⟨files, isFiles, discovery, fun noLinks other same otherNamed => ?_⟩
  rcases exists_discovery otherNamed ((same.resolve_eq start path).trans leads)
    (same.hasDirectory here) with ⟨others, isOthers, otherDiscovery⟩
  have otherNoLinks := noLinks.of_holdsSame same
  have sameFiles : ∀ file, file ∈ others ↔ file ∈ files := by
    intro file
    rw [otherDiscovery.complete otherNoLinks, discovery.complete noLinks]
    exact ⟨fun isNoteAt => isNoteAt.of_holdsSame same.symm,
      fun isNoteAt => isNoteAt.of_holdsSame same⟩
  rw [isOthers, otherDiscovery.inOrder.eq_of_mem_iff discovery.inOrder sameFiles]

/-- A notebook where one link leads back to it, another nowhere, and a third to a note. -/
def circularNotes : FileTree :=
  .directory [("n.md", .file [] default), ("back", .link "/notes"), ("gone.md", .link "nowhere"),
    ("again.md", .link "n.md")]

def circularTree : FileTree :=
  .directory [("notes", circularNotes)]

theorem circular_notes_are_listed :
    circularTree.resolve ["notes"] "back" = .ok ["notes"] ∧
    ∃ files, discover circularTree [] "notes" false = .ok files ∧
      Discovery circularTree ["notes"] files ∧
      (NoDirectoryLinks circularTree → ∀ other : FileTree, HoldsSame circularTree other →
        other.WellNamed → discover other [] "notes" false = .ok files) := by
  have notesNamed : circularNotes.WellNamed := .of_entries (by decide) (by decide) (by simp)
  have wellNamed : circularTree.WellNamed :=
    .of_entries (by decide) (by decide) (List.forall_mem_singleton.mpr notesNamed)
  have leads (links : Nat) : circularTree.follow links [] ["notes"] = .ok ["notes"] := by
    rw [← List.reverse_nil, follow_name ⟨_, rfl⟩ (by decide)]
    exact follow_nil _ _
  have back : circularTree.resolve ["notes"] "back" = .ok ["notes"] := by
    rw [resolve_name (by decide), follow_name ⟨_, rfl⟩ (by decide)]
    have target : parts "/notes" ++ [] = ["", "notes"] := by decide
    change circularTree.follow 39 [] (parts "/notes" ++ []) = .ok ["notes"]
    rw [target, follow]
    exact leads 39
  have start : circularTree.resolve [] "notes" = .ok ["notes"] := by
    rw [resolve_name (by decide)]
    exact leads linkLimit
  exact ⟨back, discovery_lists_each_note_once wellNamed [] "notes" start ⟨_, rfl⟩⟩

end Notebook

end Commonplace
