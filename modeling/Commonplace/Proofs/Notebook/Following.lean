import Commonplace.Notebook.FileTree
import Mathlib.Data.List.Nodup
import Mathlib.Data.List.Perm.Subperm

namespace Commonplace

/-!
# Following paths

What is known of a place in a tree of files, and what it takes to follow a path to it: all parts but
the last lead to directories, and an entry that is no link leads to itself.  A tree has no more
directories than are counted in it.  Nothing of this depends on the order in which directories list
their entries: trees that hold the same at every place lead the same way.
-/

/-- Whether a text can be the name of an entry of a directory. -/
structure IsEntryName (name : String) : Prop where
  notEmpty : name ≠ ""
  notHere : name ≠ "."
  notAbove : name ≠ ".."
  noSlash : '/' ∉ name.toList

instance (name : String) : Decidable (IsEntryName name) :=
  decidable_of_iff (name ≠ "" ∧ name ≠ "." ∧ name ≠ ".." ∧ '/' ∉ name.toList)
    ⟨fun ⟨notEmpty, notHere, notAbove, noSlash⟩ => ⟨notEmpty, notHere, notAbove, noSlash⟩,
      fun isName => ⟨isName.notEmpty, isName.notHere, isName.notAbove, isName.noSlash⟩⟩

namespace FileTree

/-- Whether the directories of a tree list their entries under names, and no two under the same. -/
structure WellNamed (tree : FileTree) : Prop where
  apart : ∀ place listed, tree.at? place = some (.directory listed) → (listed.map Prod.fst).Nodup
  names : ∀ place listed, tree.at? place = some (.directory listed) →
    ∀ entry ∈ listed, IsEntryName entry.1

/-- Whether there is a directory at a place. -/
def HasDirectory (tree : FileTree) (place : List String) : Prop :=
  ∃ listed, tree.at? place = some (.directory listed)

/-- Whether there is a file at a place. -/
def HasFile (tree : FileTree) (place : List String) : Prop :=
  ∃ bytes changed, tree.at? place = some (.file bytes changed)

variable {tree : FileTree}

/-! ## Places -/

theorem at?_append (tree : FileTree) (place rest : List String) :
    tree.at? (place ++ rest) = (tree.at? place).bind fun found => found.at? rest := by
  induction place generalizing tree with
  | nil => rfl
  | cons name others inductionHypothesis =>
      rw [List.cons_append, at?, at?]
      cases tree.child? name with
      | none => rfl
      | some child => exact inductionHypothesis child

theorem at?_concat (tree : FileTree) (place : List String) (name : String) :
    tree.at? (place ++ [name]) = (tree.at? place).bind fun found => found.child? name := by
  rw [at?_append]
  congr
  funext found
  rw [at?]
  cases found.child? name <;> rfl

/-- There is something below a directory just under the names that it lists. -/
theorem isSome_at?_concat_iff {place : List String} {listed : List (String × FileTree)}
    (here : tree.at? place = some (.directory listed)) (name : String) :
    (tree.at? (place ++ [name])).isSome = true ↔ name ∈ listed.map Prod.fst := by
  rw [at?_concat, here, Option.bind_some, child?, entries, Option.isSome_map, List.find?_isSome,
    List.mem_map]
  simp only [beq_iff_eq]

theorem hasDirectory_iff {place : List String} :
    tree.HasDirectory place ↔ (tree.at? place).all (fun found => !found.isDirectory) = false := by
  rw [HasDirectory]
  cases tree.at? place with
  | none => simp
  | some node => cases node <;> simp [isDirectory]

theorem HasFile.not_hasDirectory {place : List String} (hasFile : tree.HasFile place) :
    ¬tree.HasDirectory place := by
  rcases hasFile with ⟨_, _, file⟩
  rintro ⟨_, directory⟩
  rw [file] at directory
  cases directory

theorem exists_of_child? {name : String} {child : FileTree}
    (isChild : tree.child? name = some child) :
    ∃ entry ∈ tree.entries, entry.1 = name ∧ entry.2 = child := by
  rcases Option.map_eq_some_iff.mp isChild with ⟨entry, found, isEntry⟩
  have sameName := List.find?_some found
  exact ⟨entry, List.mem_of_find?_eq_some found, beq_iff_eq.mp sameName, isEntry⟩

/-! ## Well-named trees -/

/-- A directory is well named if its names are apart and what it lists is well named. -/
theorem WellNamed.of_entries {listed : List (String × FileTree)}
    (apart : (listed.map Prod.fst).Nodup) (areNames : ∀ entry ∈ listed, IsEntryName entry.1)
    (inside : ∀ entry ∈ listed, entry.2.WellNamed) :
    (directory listed).WellNamed := by
  have below : ∀ {name rest} {others : List (String × FileTree)},
      (directory listed).at? (name :: rest) = some (.directory others) →
      ∃ entry ∈ listed, entry.2.at? rest = some (.directory others) := by
    intro name rest others isDirectory
    rcases Option.bind_eq_some_iff.mp isDirectory with ⟨child, isChild, isBelow⟩
    rcases exists_of_child? isChild with ⟨entry, member, -, rfl⟩
    exact ⟨entry, member, isBelow⟩
  constructor
  · intro place others isDirectory
    cases place with
    | nil =>
        cases isDirectory
        exact apart
    | cons name rest =>
        rcases below isDirectory with ⟨entry, member, isBelow⟩
        exact (inside entry member).apart rest others isBelow
  · intro place others isDirectory
    cases place with
    | nil =>
        cases isDirectory
        exact areNames
    | cons name rest =>
        rcases below isDirectory with ⟨entry, member, isBelow⟩
        exact (inside entry member).names rest others isBelow

theorem WellNamed.of_entries_eq_nil (empty : tree.entries = [])
    (noDirectory : tree.isDirectory = false) : tree.WellNamed := by
  have nowhere : ∀ place listed, tree.at? place ≠ some (.directory listed) := by
    intro place listed isDirectory
    cases place with
    | nil =>
        cases isDirectory
        cases noDirectory
    | cons name rest =>
        rcases Option.bind_eq_some_iff.mp isDirectory with ⟨child, isChild, -⟩
        rcases exists_of_child? isChild with ⟨entry, member, -⟩
        rw [empty] at member
        cases member
  exact ⟨fun place listed here => absurd here (nowhere place listed),
    fun place listed here => absurd here (nowhere place listed)⟩

@[simp]
theorem wellNamed_file (bytes : List UInt8) (changed : Time.Instant) :
    (file bytes changed).WellNamed :=
  .of_entries_eq_nil rfl rfl

@[simp]
theorem wellNamed_link (target : String) : (link target).WellNamed :=
  .of_entries_eq_nil rfl rfl

/-! ## Directories -/

mutual

/-- The places of the directories of a tree. -/
def directoryPlaces : FileTree -> List (List String)
  | directory listed => [] :: directoryPlacesIn listed
  | file .. => []
  | link _ => []

/-- The places of the directories below some entries. -/
def directoryPlacesIn : List (String × FileTree) -> List (List String)
  | [] => []
  | (name, tree) :: rest => tree.directoryPlaces.map (name :: ·) ++ directoryPlacesIn rest

end

mutual

theorem length_directoryPlaces (tree : FileTree) :
    tree.directoryPlaces.length = tree.directoryCount := by
  cases tree with
  | directory listed =>
      rw [directoryPlaces, directoryCount, List.length_cons, length_directoryPlacesIn]
  | file | link => rw [directoryPlaces, directoryCount, List.length_nil]

theorem length_directoryPlacesIn (listed : List (String × FileTree)) :
    (directoryPlacesIn listed).length = directoryCountIn listed := by
  match listed with
  | [] => rw [directoryPlacesIn, directoryCountIn, List.length_nil]
  | (name, tree) :: rest =>
      rw [directoryPlacesIn, directoryCountIn, List.length_append, List.length_map,
        length_directoryPlaces tree, length_directoryPlacesIn rest]

end

theorem cons_mem_directoryPlacesIn {listed : List (String × FileTree)} {entry : String × FileTree}
    {place : List String} (member : entry ∈ listed) (inside : place ∈ entry.2.directoryPlaces) :
    entry.1 :: place ∈ directoryPlacesIn listed := by
  induction listed with
  | nil => cases member
  | cons head rest inductionHypothesis =>
      rcases head with ⟨name, child⟩
      rw [directoryPlacesIn, List.mem_append]
      rcases List.mem_cons.mp member with rfl | later
      · exact .inl (List.mem_map_of_mem inside)
      · exact .inr (inductionHypothesis later)

theorem HasDirectory.mem_directoryPlaces {place : List String}
    (hasDirectory : tree.HasDirectory place) : place ∈ tree.directoryPlaces := by
  induction place generalizing tree with
  | nil =>
      rcases hasDirectory with ⟨listed, here⟩
      rw [Option.some.inj here, directoryPlaces]
      exact List.mem_cons_self
  | cons name rest inductionHypothesis =>
      rcases hasDirectory with ⟨listed, here⟩
      rw [at?] at here
      rcases Option.bind_eq_some_iff.mp here with ⟨child, isChild, below⟩
      rcases exists_of_child? isChild with ⟨entry, member, sameName, rfl⟩
      have inside := inductionHypothesis ⟨listed, below⟩
      cases tree with
      | directory entries =>
          rw [directoryPlaces, ← sameName]
          exact List.mem_cons_of_mem _ (cons_mem_directoryPlacesIn member inside)
      | file | link => cases member

/-- No more than the counted directories can be told apart. -/
theorem length_le_directoryCount {places : List (List String)} (apart : places.Nodup)
    (areDirectories : ∀ place ∈ places, tree.HasDirectory place) :
    places.length ≤ tree.directoryCount := by
  rw [← length_directoryPlaces]
  exact (apart.subperm fun place member =>
    (areDirectories place member).mem_directoryPlaces).length_le

/-! ## The parts of a path -/

/-- The path through some names. -/
def pathOf (names : List String) : String :=
  "/".intercalate names

theorem toList_pathOf (names : List String) :
    (pathOf names).toList = ['/'].intercalate (names.map String.toList) := by
  rw [pathOf, String.toList_intercalate]
  rfl

theorem parts_pathOf {names : List String} (nonempty : names ≠ [])
    (areNames : ∀ name ∈ names, '/' ∉ name.toList) : parts (pathOf names) = names := by
  rw [parts, toList_pathOf, List.splitOn_intercalate]
  · rw [List.map_map]
    exact (List.map_congr_left fun name _ => String.ofList_toList).trans (List.map_id names)
  · intro part member
    rcases List.mem_map.mp member with ⟨name, isName, rfl⟩
    exact areNames name isName
  · exact fun empty => nonempty (List.map_eq_nil_iff.mp empty)

theorem pathOf_inj {first second : List String} (firstNonempty : first ≠ [])
    (secondNonempty : second ≠ [])
    (firstNames : ∀ name ∈ first, '/' ∉ name.toList)
    (secondNames : ∀ name ∈ second, '/' ∉ name.toList) (same : pathOf first = pathOf second) :
    first = second := by
  rw [← parts_pathOf firstNonempty firstNames, same, parts_pathOf secondNonempty secondNames]

/-! ## Following -/

theorem follow_nil (links : Nat) (place : List String) :
    tree.follow links place.reverse [] = .ok place := by
  rw [follow, List.reverse_reverse]

theorem hasDirectory_of_follow_cons {links : Nat} {place place' rest : List String} {part : String}
    (leads : tree.follow links place.reverse (part :: rest) = .ok place') :
    tree.HasDirectory place := by
  rw [follow, List.reverse_reverse] at leads
  split at leads
  · cases leads
  · rename_i isDirectory
    exact hasDirectory_iff.mpr (Bool.eq_false_iff.mpr isDirectory)

/-- The first part of a path that names something in a directory. -/
theorem follow_name {links : Nat} {place rest : List String} {name : String}
    (hasDirectory : tree.HasDirectory place) (isName : IsEntryName name) :
    tree.follow links place.reverse (name :: rest) =
      match tree.at? (place ++ [name]) with
      | none => .error .missing
      | some (.link target) =>
          match links with
          | 0 => .error .tooManyLinks
          | links + 1 =>
              tree.follow links (if isAbsolute target then [] else place.reverse)
                (parts target ++ rest)
      | some _ => tree.follow links (place ++ [name]).reverse rest := by
  have noName : (name == "" || name == ".") = false := by
    simp [isName.notEmpty, isName.notHere]
  have notAbove : (name == "..") = false := beq_eq_false_iff_ne.mpr isName.notAbove
  rw [follow, List.reverse_reverse, hasDirectory_iff.mp hasDirectory, noName, notAbove,
    if_neg Bool.false_ne_true, if_neg Bool.false_ne_true, if_neg Bool.false_ne_true,
    List.reverse_append]
  rfl

/-- A path that leads on through more parts leads to a directory first. -/
theorem exists_of_follow_append {links : Nat} {reversed rest place : List String}
    (first : List String) (nonempty : rest ≠ [])
    (leads : tree.follow links reversed (first ++ rest) = .ok place) :
    ∃ between, tree.follow links reversed first = .ok between ∧ tree.HasDirectory between := by
  match first with
  | [] =>
      rcases List.exists_cons_of_ne_nil nonempty with ⟨part, others, rfl⟩
      rw [List.nil_append, ← List.reverse_reverse reversed] at leads
      exact ⟨_, by rw [follow], hasDirectory_of_follow_cons leads⟩
  | part :: others =>
      rw [List.cons_append, follow] at leads
      rw [follow]
      split at leads
      · cases leads
      · rename_i isDirectory
        rw [if_neg isDirectory]
        split at leads
        · rename_i noName
          rw [if_pos noName]
          exact exists_of_follow_append others nonempty leads
        · rename_i isName
          rw [if_neg isName]
          split at leads
          · rename_i isAbove
            rw [if_pos isAbove]
            exact exists_of_follow_append others nonempty leads
          · rename_i notAbove
            rw [if_neg notAbove]
            cases here : tree.at? (reversed.reverse ++ [part]) with
            | none =>
                rw [here] at leads
                cases leads
            | some found =>
                rw [here] at leads
                cases found with
                | file | directory => exact exists_of_follow_append others nonempty leads
                | link target =>
                    cases links with
                    | zero => cases leads
                    | succ links =>
                        dsimp only at leads
                        rw [← List.append_assoc] at leads
                        exact exists_of_follow_append (parts target ++ others) nonempty leads
termination_by (links, first.length)

/-- The first part of a path that starts at the root is empty. -/
theorem parts_of_isAbsolute {path : String} (absolute : isAbsolute path = true) :
    ∃ rest, parts path = "" :: rest := by
  rcases List.head?_eq_some_iff.mp (beq_iff_eq.mp absolute) with ⟨characters, isList⟩
  rw [parts, isList, List.splitOn_cons_eq_if_modifyHead, if_pos (beq_self_eq_true '/')]
  exact ⟨_, rfl⟩

/-- A path through names leads where following the names does. -/
theorem resolve_pathOf {place names : List String} (nonempty : names ≠ [])
    (areNames : ∀ name ∈ names, IsEntryName name) :
    tree.resolve place (pathOf names) = tree.follow linkLimit place.reverse names := by
  have whole := parts_pathOf nonempty fun name member => (areNames name member).noSlash
  have relative : isAbsolute (pathOf names) = false := by
    apply Bool.eq_false_iff.mpr
    intro absolute
    rcases parts_of_isAbsolute absolute with ⟨rest, starts⟩
    rw [whole] at starts
    subst starts
    exact (areNames "" List.mem_cons_self).notEmpty rfl
  rw [resolve, whole, relative]
  rfl

theorem resolve_name {place : List String} {name : String} (isName : IsEntryName name) :
    tree.resolve place name = tree.follow linkLimit place.reverse [name] := by
  have alone : tree.resolve place (pathOf [name]) = tree.follow linkLimit place.reverse [name] :=
    resolve_pathOf (List.cons_ne_nil name []) (List.forall_mem_singleton.mpr isName)
  rwa [pathOf, String.intercalate_singleton] at alone

/-! ## The same tree in another order -/

/-- What is at a place, without what is below it. -/
def bare : FileTree -> FileTree
  | directory _ => directory []
  | node => node

/-- Whether two trees hold the same at every place: they are one tree, whose directories may list
their entries in different orders. -/
def HoldsSame (first second : FileTree) : Prop :=
  ∀ place, (first.at? place).map bare = (second.at? place).map bare

variable {other : FileTree}

theorem HoldsSame.symm (same : HoldsSame tree other) : HoldsSame other tree :=
  fun place => (same place).symm

theorem HoldsSame.exists_at? (same : HoldsSame tree other) {place : List String} {found : FileTree}
    (here : tree.at? place = some found) :
    ∃ node, other.at? place = some node ∧ node.bare = found.bare := by
  have there := same place
  rw [here] at there
  exact Option.map_eq_some_iff.mp there.symm

theorem HoldsSame.hasDirectory (same : HoldsSame tree other) {place : List String}
    (hasDirectory : tree.HasDirectory place) : other.HasDirectory place := by
  rcases hasDirectory with ⟨listed, here⟩
  rcases same.exists_at? here with ⟨node, isThere, isBare⟩
  cases node with
  | directory others => exact ⟨others, isThere⟩
  | file | link => cases isBare

theorem HoldsSame.hasFile (same : HoldsSame tree other) {place : List String}
    (hasFile : tree.HasFile place) : other.HasFile place := by
  rcases hasFile with ⟨bytes, changed, here⟩
  rcases same.exists_at? here with ⟨node, isThere, isBare⟩
  cases node with
  | file bytes changed => exact ⟨bytes, changed, isThere⟩
  | directory | link => cases isBare

theorem HoldsSame.isLink (same : HoldsSame tree other) {place : List String} {target : String}
    (isLink : tree.at? place = some (.link target)) : other.at? place = some (.link target) := by
  rcases same.exists_at? isLink with ⟨node, isThere, isBare⟩
  cases node with
  | link target =>
      cases isBare
      exact isThere
  | directory | file => cases isBare

theorem HoldsSame.all_not_isDirectory (same : HoldsSame tree other) (place : List String) :
    (other.at? place).all (fun found => !found.isDirectory) =
      (tree.at? place).all fun found => !found.isDirectory := by
  have alike : tree.HasDirectory place ↔ other.HasDirectory place :=
    ⟨same.hasDirectory, same.symm.hasDirectory⟩
  rw [hasDirectory_iff, hasDirectory_iff] at alike
  rw [Bool.eq_iff_iff, ← not_iff_not, Bool.not_eq_true, Bool.not_eq_true]
  exact alike.symm

/-- Trees that hold the same lead the same way. -/
theorem HoldsSame.follow_eq (same : HoldsSame tree other) (links : Nat)
    (reversed pending : List String) :
    other.follow links reversed pending = tree.follow links reversed pending := by
  match pending with
  | [] => rw [follow, follow]
  | part :: rest =>
      rw [follow, follow, same.all_not_isDirectory]
      have onward := fun reversed => same.follow_eq links reversed rest
      rw [onward, onward]
      cases here : tree.at? (reversed.reverse ++ [part]) with
      | none =>
          have there := same (reversed.reverse ++ [part])
          rw [here] at there
          rw [Option.map_eq_none_iff.mp there.symm]
      | some found =>
          rcases same.exists_at? here with ⟨node, isThere, isBare⟩
          rw [isThere]
          cases node with
          | file | directory =>
              cases found with
              | file | directory => simp only [onward]
              | link => cases isBare
          | link target =>
              cases found with
              | file | directory => cases isBare
              | link =>
                  cases isBare
                  cases links with
                  | zero => rfl
                  | succ links =>
                      simp only [same.follow_eq links]
termination_by (links, pending.length)

theorem HoldsSame.resolve_eq (same : HoldsSame tree other) (start : List String) (path : String) :
    other.resolve start path = tree.resolve start path :=
  same.follow_eq _ _ _

end FileTree

end Commonplace
