import Commonplace.Proofs.Notebook.Walking
import Mathlib.Data.List.TakeWhile

namespace Commonplace

/-!
# The notes that a walk lists

A walk lists a note under the names on the way to it, and under no other path twice, whatever links
there are.  Where no link leads to a directory, the way to a note is its path, and the walk lists
every note that a path without hidden names leads to.
-/

namespace Notebook

open FileTree

variable {tree : FileTree}

/-! ## The names of notes -/

/-- Whether a name ends in a dot and one of the endings of notes, in any case, with something in
front. -/
def HasNoteEnding (name : String) : Prop :=
  ∃ before extension, before ≠ [] ∧ name.toList = before ++ '.' :: extension ∧
    String.ofList (extension.map Char.toLower) ∈ noteEndings

theorem ending_eq_some_iff {name extension : String} : ending name = some extension ↔
    '.' ∉ extension.toList ∧ ∃ before ≠ [], name.toList = before ++ '.' :: extension.toList := by
  have noDot : ∀ {characters : List Char}, '.' ∉ characters →
      ∀ character ∈ characters.reverse, (character != '.') = true := by
    intro characters absent character member
    rw [List.mem_reverse] at member
    exact bne_iff_ne.mpr fun isDot => absent (isDot ▸ member)
  constructor
  · intro isEnding
    rw [ending] at isEnding
    split at isEnding
    · rename_i dot last before isRest
      cases isEnding
      have isDot := List.head_dropWhile_not (fun character => character != '.')
        (isRest ▸ List.cons_ne_nil dot (last :: before))
      simp only [isRest, List.head_cons, bne_eq_false_iff_eq] at isDot
      have whole := congrArg List.reverse (List.takeWhile_append_dropWhile
        (p := fun character => character != '.') (l := name.toList.reverse))
      rw [isRest, isDot, List.reverse_reverse, List.reverse_append, List.reverse_cons,
        List.append_assoc, List.singleton_append] at whole
      rw [String.toList_ofList]
      refine ⟨fun absurd => ?_, (last :: before).reverse, by simp, whole.symm⟩
      have noDot := List.mem_takeWhile_imp (List.mem_reverse.mp absurd)
      exact bne_iff_ne.mp noDot rfl
    · cases isEnding
  · rintro ⟨absent, before, nonempty, isName⟩
    rcases List.eq_nil_or_concat before with rfl | ⟨others, last, rfl⟩
    · exact absurd rfl nonempty
    · have reversed : name.toList.reverse =
          extension.toList.reverse ++ '.' :: last :: others.reverse := by
        rw [isName]
        simp
      rw [ending, reversed, List.dropWhile_append_of_pos (noDot absent),
        List.takeWhile_append_of_pos (noDot absent)]
      simp

/-- No ending of notes has a dot in it. -/
theorem dot_not_mem_of_noteEnding {extension : List Char}
    (isNote : String.ofList (extension.map Char.toLower) ∈ noteEndings) : '.' ∉ extension := by
  intro dot
  have lowered : '.' ∈ (String.ofList (extension.map Char.toLower)).toList := by
    rw [String.toList_ofList]
    exact List.mem_map_of_mem dot
  have none : ∀ ending ∈ noteEndings, '.' ∉ ending.toList := by decide
  exact none _ isNote lowered

theorem isNoteName_iff {name : String} : isNoteName name = true ↔ HasNoteEnding name := by
  rw [isNoteName, Option.any_eq_true]
  constructor
  · rintro ⟨extension, isEnding, isNote⟩
    rcases ending_eq_some_iff.mp isEnding with ⟨-, before, nonempty, isName⟩
    exact ⟨before, extension.toList, nonempty, isName, List.contains_iff_mem.mp isNote⟩
  · rintro ⟨before, extension, nonempty, isName, isNote⟩
    refine ⟨String.ofList extension, ending_eq_some_iff.mpr ?_, List.contains_iff_mem.mpr ?_⟩
    · rw [String.toList_ofList]
      exact ⟨dot_not_mem_of_noteEnding isNote, before, nonempty, isName⟩
    · rwa [String.toList_ofList]

-- A dot at the start of a name begins no ending, and only the last ending counts.
example : isNoteName "Plan.v2.MD" = true ∧ isNoteName ".md" = false ∧
    isNoteName "notes.md.txt" = false := by decide

/-! ## The way to a note -/

/-- `NoteBelow tree directory path place`: the names of the path lead step by step from a directory
to a note that is at a place. -/
inductive NoteBelow (tree : FileTree) : (directory path place : List String) → Prop where
  | here {directory place : List String} {name : String} (isName : IsEntryName name)
      (entry : NoteEntry tree directory name place) : NoteBelow tree directory [name] place
  | through {directory inner path place : List String} {name : String}
      {listed : List (String × FileTree)} (isName : IsEntryName name)
      (entry : DirectoryEntry tree directory name inner listed)
      (further : NoteBelow tree inner path place) : NoteBelow tree directory (name :: path) place

/-- Whether a path below a directory, without hidden names, leads to a note that is at a place. -/
structure IsNoteAt (tree : FileTree) (directory path place : List String) : Prop where
  nonempty : path ≠ []
  isEntryName : ∀ name ∈ path, IsEntryName name
  shown : ∀ name ∈ path, isHidden name = false
  leads : tree.resolve directory (pathOf path) = .ok place
  isFile : tree.HasFile place
  isNote : ∃ name, place.getLast? = some name ∧ HasNoteEnding name

variable {directory path place names : List String} {name : String} {found final : Found}
  {listed : List (String × FileTree)} {reads : List (List String)} {file : NoteFile}

theorem NoteBelow.shown (isBelow : NoteBelow tree directory path place) :
    ∀ name ∈ path, isHidden name = false := by
  induction isBelow with
  | here _ entry => exact List.forall_mem_singleton.mpr entry.shown
  | through _ entry _ inductionHypothesis =>
      exact List.forall_mem_cons.mpr ⟨entry.shown, inductionHypothesis⟩

theorem NoteBelow.isFile (isBelow : NoteBelow tree directory path place) : tree.HasFile place := by
  induction isBelow with
  | here _ entry => exact entry.isFile
  | through _ _ _ inductionHypothesis => exact inductionHypothesis

theorem NoteBelow.isNote (isBelow : NoteBelow tree directory path place) :
    place.getLast?.any isNoteName = true := by
  induction isBelow with
  | here _ entry => exact entry.isNote
  | through _ _ _ inductionHypothesis => exact inductionHypothesis

theorem NoteBelow.nonempty (isBelow : NoteBelow tree directory path place) : path ≠ [] := by
  cases isBelow <;> exact List.cons_ne_nil _ _

theorem NoteBelow.isEntryName (isBelow : NoteBelow tree directory path place) :
    ∀ name ∈ path, IsEntryName name := by
  induction isBelow with
  | here isName => exact List.forall_mem_singleton.mpr isName
  | through isName _ _ inductionHypothesis =>
      exact List.forall_mem_cons.mpr ⟨isName, inductionHypothesis⟩

/-- A file that is listed for one of the names of a directory. -/
def ListedFor (tree : FileTree) (directory path : List String) (name : String)
    (file : NoteFile) : Prop :=
  ∃ rest, file.path = path ++ name :: rest ∧ NoteBelow tree directory (name :: rest) file.place

/-- Files that are listed for different names have different paths. -/
theorem ListedFor.name_eq {other : String} {otherFile : NoteFile}
    (first : ListedFor tree directory path name file)
    (second : ListedFor tree directory path other otherFile) (same : file.path = otherFile.path) :
    name = other := by
  rcases first with ⟨rest, isPath, -⟩
  rcases second with ⟨otherRest, isOther, -⟩
  rw [isPath, isOther] at same
  exact (List.cons.inj (List.append_cancel_left same)).1

theorem ListedFor.through {inner : List String} {next : String} (isName : IsEntryName name)
    (entry : DirectoryEntry tree directory name inner listed)
    (isListed : ListedFor tree inner (path ++ [name]) next file) :
    ListedFor tree directory path name file := by
  rcases isListed with ⟨rest, isPath, isBelow⟩
  refine ⟨next :: rest, ?_, .through isName entry isBelow⟩
  rw [isPath, List.append_assoc, List.singleton_append]

/-- What a walk through names adds to the notes: they are listed for the names, each under a path of
its own. -/
structure Additions (tree : FileTree) (directory path names : List String) (added : List NoteFile) :
    Prop where
  apart : (added.map NoteFile.path).Nodup
  listed : ∀ file ∈ added, ∃ name ∈ names, ListedFor tree directory path name file

theorem Additions.append {first second : List NoteFile} (fresh : name ∉ names)
    (earlier : Additions tree directory path [name] first)
    (later : Additions tree directory path names second) :
    Additions tree directory path (name :: names) (second ++ first) where
  apart := by
    rw [List.map_append]
    refine List.nodup_append.mpr ⟨later.apart, earlier.apart, ?_⟩
    intro path isSecond otherPath isFirst same
    rcases List.mem_map.mp isSecond with ⟨file, member, rfl⟩
    rcases List.mem_map.mp isFirst with ⟨other, otherMember, rfl⟩
    rcases later.listed file member with ⟨next, isNext, isListed⟩
    rcases earlier.listed other otherMember with ⟨_, isName, alsoListed⟩
    cases List.mem_singleton.mp isName
    cases isListed.name_eq alsoListed same
    exact fresh isNext
  listed := by
    intro file member
    rcases List.mem_append.mp member with isSecond | isFirst
    · rcases later.listed file isSecond with ⟨next, isNext, isListed⟩
      exact ⟨next, List.mem_cons_of_mem name isNext, isListed⟩
    · rcases earlier.listed file isFirst with ⟨_, isName, isListed⟩
      cases List.mem_singleton.mp isName
      exact ⟨name, List.mem_cons_self, isListed⟩

theorem Additions.nil : Additions tree directory path names [] :=
  ⟨List.nodup_nil, nofun⟩

theorem Additions.note {place : List String} (isName : IsEntryName name)
    (entry : NoteEntry tree directory name place) :
    Additions tree directory path [name] [⟨path ++ [name], place⟩] where
  apart := List.nodup_singleton _
  listed := List.forall_mem_singleton.mpr
    ⟨name, List.mem_singleton_self name, [], rfl, .here isName entry⟩

theorem Additions.through {inner : List String} {added : List NoteFile} (isName : IsEntryName name)
    (entry : DirectoryEntry tree directory name inner listed)
    (inside : Additions tree inner (path ++ [name]) names added) :
    Additions tree directory path [name] added where
  apart := inside.apart
  listed := by
    intro file member
    rcases inside.listed file member with ⟨next, -, isListed⟩
    exact ⟨name, List.mem_singleton_self name, isListed.through isName entry⟩

/-- A walk lists no path twice. -/
theorem Visits.exists_additions (visits : Visits tree directory path names found reads final)
    (wellNamed : tree.WellNamed) (areNames : ∀ name ∈ names, IsEntryName name)
    (apart : names.Nodup) :
    ∃ added, final.notes = added ++ found.notes ∧ Additions tree directory path names added := by
  induction visits with
  | done => exact ⟨[], rfl, .nil⟩
  | pass _ _ inductionHypothesis =>
      rw [List.forall_mem_cons] at areNames
      rw [List.nodup_cons] at apart
      rcases inductionHypothesis areNames.2 apart.2 with ⟨added, isAdded, additions⟩
      have whole := Additions.nil.append apart.1 additions
      rw [List.append_nil] at whole
      exact ⟨added, isAdded, whole⟩
  | @note _ path place name _ _ _ _ entry _ inductionHypothesis =>
      rw [List.forall_mem_cons] at areNames
      rw [List.nodup_cons] at apart
      rcases inductionHypothesis areNames.2 apart.2 with ⟨added, isAdded, additions⟩
      refine ⟨added ++ [⟨path ++ [name], place⟩], ?_,
        (Additions.note areNames.1 entry).append apart.1 additions⟩
      rw [isAdded, List.append_assoc, List.singleton_append]
  | enter entry fresh _ _ insideHypothesis laterHypothesis =>
      rw [List.forall_mem_cons] at areNames
      rw [List.nodup_cons] at apart
      have areInner := wellNamed.names _ _ entry.isDirectory
      have innerApart := wellNamed.apart _ _ entry.isDirectory
      rcases insideHypothesis (List.forall_mem_map.mpr areInner) innerApart with
        ⟨inner, isInner, inside⟩
      rcases laterHypothesis areNames.2 apart.2 with ⟨outer, isOuter, later⟩
      refine ⟨outer ++ inner, ?_, (inside.through areNames.1 entry).append apart.1 later⟩
      rw [isOuter, isInner, List.append_assoc]

/-! ## Trees where no link leads to a directory -/

/-- No link of a tree leads to a directory. -/
def NoDirectoryLinks (tree : FileTree) : Prop :=
  ∀ directory name target place, tree.at? (directory ++ [name]) = some (.link target) →
    tree.resolve directory name = .ok place → ¬tree.HasDirectory place

theorem DirectoryEntry.place_eq {place : List String} (noLinks : NoDirectoryLinks tree)
    (isName : IsEntryName name) (here : tree.HasDirectory directory)
    (entry : DirectoryEntry tree directory name place listed) : place = directory ++ [name] := by
  have leads := entry.leads
  rw [resolve_name isName, follow_name here isName] at leads
  cases isEntry : tree.at? (directory ++ [name]) with
  | none =>
      rw [isEntry] at leads
      cases leads
  | some found =>
      rw [isEntry] at leads
      cases found with
      | link target =>
          exact absurd ⟨listed, entry.isDirectory⟩
            (noLinks directory name target place isEntry entry.leads)
      | file | directory =>
          dsimp only at leads
          rw [follow_nil] at leads
          exact (Except.ok.inj leads).symm

/-- Without links to directories, a walk reads only what is below the names of its directory. -/
theorem Visits.exists_of_mem_reads (visits : Visits tree directory path names found reads final)
    (wellNamed : tree.WellNamed) (noLinks : NoDirectoryLinks tree)
    (here : tree.HasDirectory directory) (areNames : ∀ name ∈ names, IsEntryName name) :
    ∀ place ∈ reads, ∃ name ∈ names, directory ++ [name] <+: place := by
  induction visits with
  | done => exact nofun
  | pass _ _ inductionHypothesis | note _ _ inductionHypothesis =>
      rw [List.forall_mem_cons] at areNames
      intro place member
      rcases inductionHypothesis here areNames.2 place member with ⟨name, isName, below⟩
      exact ⟨name, List.mem_cons_of_mem _ isName, below⟩
  | @enter directory path inner name names listed _ _ _ _ _ entry fresh _ _ insideHypothesis
      laterHypothesis =>
      rw [List.forall_mem_cons] at areNames
      have isBelow := entry.place_eq noLinks areNames.1 here
      subst isBelow
      have areInner := wellNamed.names _ _ entry.isDirectory
      intro place member
      rcases List.mem_cons.mp member with rfl | member
      · exact ⟨name, List.mem_cons_self, List.prefix_rfl⟩
      · rcases List.mem_append.mp member with isInside | isLater
        · rcases insideHypothesis ⟨listed, entry.isDirectory⟩ (List.forall_mem_map.mpr areInner)
            place isInside with ⟨next, -, below⟩
          exact ⟨name, List.mem_cons_self, (List.prefix_append _ _).trans below⟩
        · rcases laterHypothesis here areNames.2 place isLater with ⟨next, isNext, below⟩
          exact ⟨next, List.mem_cons_of_mem _ isNext, below⟩

theorem name_eq_of_below {first second : String} {place : List String}
    (isFirst : directory ++ [first] <+: place) (isSecond : directory ++ [second] <+: place) :
    first = second := by
  have sameLength : (directory ++ [first]).length = (directory ++ [second]).length := by
    rw [List.length_append, List.length_append, List.length_singleton, List.length_singleton]
  have same := (List.prefix_of_prefix_length_le isFirst isSecond
    (Nat.le_of_eq sameLength)).eq_of_length sameLength
  exact List.singleton_inj.mp (List.append_cancel_left same)

theorem not_concat_prefix_self : ¬directory ++ [name] <+: directory := by
  intro below
  have longer := below.length_le
  rw [List.length_append, List.length_singleton] at longer
  omega

/-- A name that leads somewhere from a directory is listed there. -/
theorem mem_names_of_resolve {place : List String} {name : String}
    (here : tree.at? directory = some (.directory listed)) (isName : IsEntryName name)
    (leads : tree.resolve directory name = .ok place) : name ∈ listed.map Prod.fst := by
  rw [resolve_name isName, follow_name ⟨listed, here⟩ isName] at leads
  rw [← isSome_at?_concat_iff here]
  cases isEntry : tree.at? (directory ++ [name]) with
  | none =>
      rw [isEntry] at leads
      cases leads
  | some found => rfl

/-- The only file that is listed for a note is the note. -/
theorem ListedFor.eq_note {place : List String} (isListed : ListedFor tree directory path name file)
    (entry : NoteEntry tree directory name place) : file = ⟨path ++ [name], place⟩ := by
  rcases file with ⟨filePath, filePlace⟩
  rcases isListed with ⟨rest, isPath, isBelow⟩
  cases isBelow with
  | here _ other =>
      cases entry.unique other
      exact congrArg (NoteFile.mk · filePlace) isPath
  | through _ other => exact absurd other entry.not_directoryEntry

/-- A note below a directory is listed for one of its names. -/
theorem NoteBelow.exists_listedFor {rest : List String}
    (isBelow : NoteBelow tree directory rest file.place)
    (here : tree.at? directory = some (.directory listed)) (isPath : file.path = path ++ rest) :
    ∃ name ∈ listed.map Prod.fst, ListedFor tree directory path name file := by
  cases isBelow with
  | here isName entry =>
      exact ⟨_, mem_names_of_resolve here isName entry.leads, [], isPath, .here isName entry⟩
  | through isName entry further =>
      exact ⟨_, mem_names_of_resolve here isName entry.leads, _, isPath,
        .through isName entry further⟩

/-- The files that are listed for a directory are listed for the names in it. -/
theorem ListedFor.exists_inner {inner : List String}
    (isListed : ListedFor tree directory path name file)
    (entry : DirectoryEntry tree directory name inner listed) :
    ∃ next ∈ listed.map Prod.fst, ListedFor tree inner (path ++ [name]) next file := by
  rcases isListed with ⟨rest, isPath, isBelow⟩
  cases isBelow with
  | here _ other => exact absurd entry other.not_directoryEntry
  | through _ other further =>
      cases (entry.unique other).1
      refine further.exists_listedFor entry.isDirectory ?_
      rw [isPath, List.append_assoc, List.singleton_append]

/-- Nothing is listed for a name that is passed, unless a directory was entered before. -/
theorem ListedFor.exists_entered (isListed : ListedFor tree directory path name file)
    (isPassed : Passed tree directory found name) :
    ∃ place listed, DirectoryEntry tree directory name place listed ∧ place ∈ found.entered := by
  rcases isListed with ⟨rest, isPath, isBelow⟩
  cases isBelow with
  | here _ entry => exact absurd entry (isPassed.noNote _)
  | through _ entry => exact ⟨_, _, entry, isPassed.entered _ _ entry⟩

/-- Nothing below a place was entered, nor the place itself. -/
def Untouched (found : Found) (place : List String) : Prop :=
  ∀ entered ∈ found.entered, ¬place <+: entered

/-- What is below a directory is untouched when only the directory itself is entered. -/
theorem Untouched.enter (untouched : Untouched found directory) (name : String) :
    Untouched { found with entered := directory :: found.entered } (directory ++ [name]) :=
  List.forall_mem_cons.mpr ⟨not_concat_prefix_self, fun place entered below =>
    untouched place entered ((List.prefix_append _ _).trans below)⟩

/-- What is below a name stays untouched while another name of its directory is visited. -/
theorem Visits.untouched {other : String}
    (visits : Visits tree directory path [name] found reads final) (wellNamed : tree.WellNamed)
    (noLinks : NoDirectoryLinks tree) (here : tree.HasDirectory directory)
    (isName : IsEntryName name) (different : name ≠ other)
    (untouched : Untouched found (directory ++ [other])) :
    Untouched final (directory ++ [other]) := by
  have readBelow := visits.exists_of_mem_reads wellNamed noLinks here
    (List.forall_mem_singleton.mpr isName)
  rw [Untouched, visits.entered_eq]
  intro place entered below
  rcases List.mem_append.mp entered with isRead | isOlder
  · rcases readBelow place (List.mem_reverse.mp isRead) with ⟨_, isHead, headBelow⟩
    cases List.mem_singleton.mp isHead
    exact different (name_eq_of_below headBelow below)
  · exact untouched place isOlder below

/-- Without links to directories, a walk finds every note below the names of its directory, unless
something below them was entered before. -/
theorem Visits.mem_notes (visits : Visits tree directory path names found reads final)
    (wellNamed : tree.WellNamed) (noLinks : NoDirectoryLinks tree)
    (here : tree.HasDirectory directory) (areNames : ∀ name ∈ names, IsEntryName name)
    (apart : names.Nodup) (untouched : ∀ name ∈ names, Untouched found (directory ++ [name])) :
    ∀ name ∈ names, ∀ file, ListedFor tree directory path name file → file ∈ final.notes := by
  induction visits with
  | done => exact nofun
  | @pass directory path head names found final _ isPassed _ inductionHypothesis =>
      rw [List.forall_mem_cons] at areNames untouched
      rw [List.nodup_cons] at apart
      refine List.forall_mem_cons.mpr
        ⟨fun file isListed => ?_, inductionHypothesis here areNames.2 apart.2 untouched.2⟩
      rcases isListed.exists_entered isPassed with ⟨place, listed, entry, entered⟩
      rw [entry.place_eq noLinks areNames.1 here] at entered
      exact absurd List.prefix_rfl (untouched.1 _ entered)
  | @note directory path place head names found final _ entry later inductionHypothesis =>
      rw [List.forall_mem_cons] at areNames untouched
      rw [List.nodup_cons] at apart
      refine List.forall_mem_cons.mpr
        ⟨fun file isListed => ?_, inductionHypothesis here areNames.2 apart.2 untouched.2⟩
      rw [isListed.eq_note entry]
      rcases later.exists_additions wellNamed areNames.2 apart.2 with ⟨added, isAdded, -⟩
      rw [isAdded]
      exact List.mem_append_right added List.mem_cons_self
  | @enter directory path inner head names listed found between final read _ entry fresh inside
      later insideHypothesis laterHypothesis =>
      rw [List.forall_mem_cons] at areNames untouched
      rw [List.nodup_cons] at apart
      have isInner := entry.place_eq noLinks areNames.1 here
      have innerNames := List.forall_mem_map.mpr (wellNamed.names _ _ entry.isDirectory)
      have innerApart := wellNamed.apart _ _ entry.isDirectory
      refine List.forall_mem_cons.mpr
        ⟨fun file isListed => ?_, laterHypothesis here areNames.2 apart.2 fun name isName => ?_⟩
      · rcases isListed.exists_inner entry with ⟨next, isNext, isListedInside⟩
        rcases later.exists_additions wellNamed areNames.2 apart.2 with ⟨added, isAdded, -⟩
        rw [isAdded]
        rw [← isInner] at untouched
        exact List.mem_append_right added (insideHypothesis ⟨listed, entry.isDirectory⟩ innerNames
          innerApart (fun next _ => untouched.1.enter next) next isNext file isListedInside)
      · have alone : Visits tree directory path [head] found _ between :=
          .enter entry fresh inside .done
        have different : head ≠ name := fun same => apart.1 (same ▸ isName)
        exact alone.untouched wellNamed noLinks here areNames.1 different (untouched.2 name isName)

theorem DirectoryEntry.follow_cons {rest : List String} (noLinks : NoDirectoryLinks tree)
    (isName : IsEntryName name) (here : tree.HasDirectory directory)
    (entry : DirectoryEntry tree directory name place listed) :
    tree.follow linkLimit directory.reverse (name :: rest) =
      tree.follow linkLimit place.reverse rest := by
  have isDirectory := entry.isDirectory
  rw [entry.place_eq noLinks isName here] at isDirectory ⊢
  rw [follow_name here isName, isDirectory]

theorem NoteBelow.follow_eq (noLinks : NoDirectoryLinks tree) (here : tree.HasDirectory directory)
    (isBelow : NoteBelow tree directory path place) :
    tree.follow linkLimit directory.reverse path = .ok place := by
  induction isBelow with
  | here isName entry => rw [← resolve_name isName, entry.leads]
  | @through _ _ _ _ _ listed isName entry _ inductionHypothesis =>
      rw [entry.follow_cons noLinks isName here, inductionHypothesis ⟨listed, entry.isDirectory⟩]

theorem noteBelow_of_follow (noLinks : NoDirectoryLinks tree) (here : tree.HasDirectory directory)
    (nonempty : path ≠ []) (areNames : ∀ name ∈ path, IsEntryName name)
    (shown : ∀ name ∈ path, isHidden name = false)
    (leads : tree.follow linkLimit directory.reverse path = .ok place)
    (isFile : tree.HasFile place) (isNote : place.getLast?.any isNoteName = true) :
    NoteBelow tree directory path place := by
  induction path generalizing directory with
  | nil => exact absurd rfl nonempty
  | cons name rest inductionHypothesis =>
      rw [List.forall_mem_cons] at areNames shown
      by_cases more : rest = []
      · subst more
        rw [← resolve_name areNames.1] at leads
        exact .here areNames.1 ⟨shown.1, leads, isFile, isNote⟩
      · rcases exists_of_follow_append [name] more leads with
          ⟨between, isBetween, listed, isDirectory⟩
        rw [← resolve_name areNames.1] at isBetween
        have entry : DirectoryEntry tree directory name between listed :=
          ⟨shown.1, isBetween, isDirectory⟩
        rw [entry.follow_cons noLinks areNames.1 here] at leads
        exact .through areNames.1 entry
          (inductionHypothesis ⟨listed, isDirectory⟩ more areNames.2 shown.2 leads)

/-- Without links to directories, the names on the way to a note are the path to it. -/
theorem noteBelow_iff (noLinks : NoDirectoryLinks tree) (here : tree.HasDirectory directory) :
    NoteBelow tree directory path place ↔ IsNoteAt tree directory path place := by
  constructor
  · intro isBelow
    refine ⟨isBelow.nonempty, isBelow.isEntryName, isBelow.shown, ?_, isBelow.isFile, ?_⟩
    · rw [resolve_pathOf isBelow.nonempty isBelow.isEntryName, isBelow.follow_eq noLinks here]
    · rcases (Option.any_eq_true _ _).mp isBelow.isNote with ⟨name, isLast, isNote⟩
      exact ⟨name, isLast, isNoteName_iff.mp isNote⟩
  · intro isNoteAt
    rcases isNoteAt.isNote with ⟨name, isLast, isNote⟩
    have leads := isNoteAt.leads
    rw [resolve_pathOf isNoteAt.nonempty isNoteAt.isEntryName] at leads
    exact noteBelow_of_follow noLinks here isNoteAt.nonempty isNoteAt.isEntryName isNoteAt.shown
      leads isNoteAt.isFile
      ((Option.any_eq_true _ _).mpr ⟨name, isLast, isNoteName_iff.mpr isNote⟩)

end Notebook

end Commonplace
