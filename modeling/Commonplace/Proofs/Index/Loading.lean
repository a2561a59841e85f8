import Commonplace.Index.Results
import Commonplace.Proofs.Index.Replay
import Commonplace.Proofs.Index.Stored

namespace Commonplace

/-!
# Notes that can be loaded

A stored note can be loaded exactly when its metadata is not nested too deep, and its stored form is
nested as deep as the note.  A search answers exactly when all notes that it loads can be loaded.
These are notes that it selects, and all of them unless the best are asked for.  A note that was
added is loaded as the store keeps it.
-/

namespace Json

mutual

theorem bytesBeforeDeep?_eq_none_iff (room : Nat) (value : Json) :
    value.bytesBeforeDeep? room = none ↔ value.depth ≤ room := by
  cases value with
  | list items =>
      rw [bytesBeforeDeep?, depth]
      cases room with
      | zero => exact iff_of_false nofun (Nat.not_succ_le_zero _)
      | succ room =>
          rw [if_neg (by simp), Option.map_eq_none_iff, Nat.add_sub_cancel,
            itemsBeforeDeep?_eq_none_iff room items, Nat.add_le_add_iff_right]
  | object fields =>
      rw [bytesBeforeDeep?, depth]
      cases room with
      | zero => exact iff_of_false nofun (Nat.not_succ_le_zero _)
      | succ room =>
          rw [if_neg (by simp), Option.map_eq_none_iff, Nat.add_sub_cancel,
            fieldsBeforeDeep?_eq_none_iff room fields, Nat.add_le_add_iff_right]
  | null | bool | whole | fraction | text =>
      exact iff_of_true (by simp [bytesBeforeDeep?]) (by simp [depth])

theorem itemsBeforeDeep?_eq_none_iff (room : Nat) (items : List Json) :
    itemsBeforeDeep? room items = none ↔ itemsDepth items ≤ room := by
  cases items with
  | nil => exact iff_of_true (by simp [itemsBeforeDeep?]) (by simp [itemsDepth])
  | cons item rest =>
      rw [itemsBeforeDeep?, itemsDepth, Option.or_eq_none_iff, Option.map_eq_none_iff,
        bytesBeforeDeep?_eq_none_iff room item, itemsBeforeDeep?_eq_none_iff room rest, max_le_iff]

theorem fieldsBeforeDeep?_eq_none_iff (room : Nat) (fields : List (String × Json)) :
    fieldsBeforeDeep? room fields = none ↔ fieldsDepth fields ≤ room := by
  cases fields with
  | nil => exact iff_of_true (by simp [fieldsBeforeDeep?]) (by simp [fieldsDepth])
  | cons field rest =>
      rw [fieldsBeforeDeep?, fieldsDepth, Option.or_eq_none_iff, Option.map_eq_none_iff,
        Option.map_eq_none_iff, bytesBeforeDeep?_eq_none_iff room field.2,
        fieldsBeforeDeep?_eq_none_iff room rest, max_le_iff]

end

/-- A number that was read is no list and no object. -/
theorem depth_of_value? {number : WrittenNumber} {value : Json}
    (read : number.value? = some value) :
    value.depth = 0 := by
  unfold WrittenNumber.value? at read
  dsimp only at read
  split at read
  · split at read
    · cases read
      rfl
    · split at read <;> cases read <;> rfl
  · rcases Option.map_eq_some_iff.mp read with ⟨rounded, _, rfl⟩
    rfl

theorem depth_of_readNumber {characters rest : List Char} {value : Json}
    (read : readNumber characters = some (value, rest)) : value.depth = 0 := by
  rcases Option.bind_eq_some_iff.mp read with ⟨⟨number, left⟩, _, more⟩
  rcases Option.bind_eq_some_iff.mp more with ⟨found, hasValue, same⟩
  cases same
  exact depth_of_value? hasValue

end Json

namespace Index

mutual

/-- What is read back is nested as deep as what was written. -/
theorem depth_heldValue (value : Json) : (heldValue value).depth = value.depth := by
  cases value with
  | fraction number =>
      rw [heldValue]
      cases read : Json.readNumber (Json.fractionText number).toList with
      | none => rfl
      | some found => exact Json.depth_of_readNumber (read : _ = some (found.1, found.2))
  | list items => rw [heldValue, Json.depth, Json.depth, depth_heldItems items]
  | object fields => rw [heldValue, Json.depth, Json.depth, depth_heldFields fields]
  | null | bool | whole | text => rw [heldValue] <;> nofun

theorem depth_heldItems (items : List Json) :
    Json.itemsDepth (heldItems items) = Json.itemsDepth items := by
  cases items with
  | nil => rfl
  | cons item rest =>
      rw [heldItems, Json.itemsDepth, Json.itemsDepth, depth_heldValue item, depth_heldItems rest]

theorem depth_heldFields (fields : List (String × Json)) :
    Json.fieldsDepth (heldFields fields) = Json.fieldsDepth fields := by
  cases fields with
  | nil => rfl
  | cons field rest =>
      rw [heldFields, Json.fieldsDepth, Json.fieldsDepth, depth_heldValue field.2,
        depth_heldFields rest]

end

/-- Whether the metadata of a note is not nested too deep to be loaded. -/
def Loadable (note : Note) : Prop :=
  (Json.object note.metadata).depth ≤ nestingLimit

instance (note : Note) : Decidable (Loadable note) :=
  inferInstanceAs (Decidable (_ ≤ _))

theorem loadFault?_eq_none_iff (note : Note) : loadFault? note = none ↔ Loadable note := by
  rw [loadFault?, Option.map_eq_none_iff, Json.bytesBeforeDeep?_eq_none_iff]
  rfl

theorem findSome?_loadFault?_eq_none_iff {notes : List Note} :
    notes.findSome? loadFault? = none ↔ ∀ note ∈ notes, Loadable note := by
  rw [List.findSome?_eq_none_iff]
  exact forall₂_congr fun note _ => loadFault?_eq_none_iff note

theorem loaded_of_not_loadable {note : Note} (tooDeep : ¬Loadable note) :
    ∃ fault, loaded note = .error fault := by
  rw [← loadFault?_eq_none_iff] at tooDeep
  rcases Option.ne_none_iff_exists'.mp tooDeep with ⟨fault, found⟩
  exact ⟨fault, by rw [loaded, found]⟩

theorem loaded_of_loadable {note : Note} (loadable : Loadable note) :
    loaded note = .ok (stored note) := by
  rw [loaded, (loadFault?_eq_none_iff note).mpr loadable]

theorem loadable_stored (note : Note) : Loadable (stored note) ↔ Loadable note := by
  change Json.fieldsDepth (heldFields note.metadata) + 1 ≤ nestingLimit ↔ _
  rw [depth_heldFields]
  rfl

/-- A number of lists within each other, the innermost of which is empty. -/
def nestedLists : Nat -> Json
  | 0 => .list []
  | count + 1 => .list [nestedLists count]

theorem depth_nestedLists (count : Nat) : (nestedLists count).depth = count + 1 := by
  induction count with
  | zero => rfl
  | succ count inductionHypothesis =>
      rw [nestedLists, Json.depth, Json.itemsDepth, Json.itemsDepth, inductionHypothesis,
        Nat.max_zero]

/-- Whether a value is a number of lists within each other, the innermost of which is empty. -/
def isNestedLists : Nat -> Json -> Bool
  | 0, .list [] => true
  | count + 1, .list [item] => isNestedLists count item
  | _, _ => false

theorem eq_nestedLists {count : Nat} {value : Json} (nested : isNestedLists count value = true) :
    value = nestedLists count := by
  fun_induction isNestedLists count value with
  | case1 => rfl
  | case2 count item inductionHypothesis => rw [inductionHypothesis nested, nestedLists]
  | case3 => cases nested

/-- A note about work that is nested too deep. -/
def deepNote : Note :=
  { Note.ofPath "deep.md" with tags := ["work"], metadata := [("data", nestedLists 126)] }

theorem deepNote_not_loadable : ¬Loadable deepNote := by
  change ¬max (nestedLists 126).depth 0 + 1 ≤ nestingLimit
  rw [depth_nestedLists]
  decide

/-! ## Searches -/

/-- The notes that are ordered are those that are selected. -/
theorem bestFirst_perm (contents : Contents) (criterion : Criterion) :
    (bestFirst contents criterion).Perm (selected contents.notes criterion) := by
  have kept : ∀ score : Note -> Float32,
      ((selected contents.notes criterion).map fun note => (score note, note)).map Prod.snd =
        selected contents.notes criterion := by
    intro score
    rw [List.map_map]
    exact List.map_id _
  have sorted := (List.mergeSort_perm ((selected contents.notes criterion).map fun note =>
    ((criterion.scorer contents.counted).score note, note))
      (listedFirst .relevance .descending)).map Prod.snd
  rw [kept] at sorted
  exact sorted

section Search

variable {contents : Contents} {options : SearchOptions} {criterion : Criterion}

/-- A search loads notes that it selects. -/
theorem mem_selected_of_mem_notesToLoad {note : Note}
    (member : note ∈ notesToLoad contents criterion options) :
    note ∈ selected contents.notes criterion := by
  rw [← (bestFirst_perm contents criterion).mem_iff]
  unfold notesToLoad at member
  dsimp only at member
  split at member
  · exact List.mem_of_mem_drop (List.mem_of_mem_take member)
  · exact member

theorem loadable_of_mem_notesToLoad (loadable : ∀ note ∈ contents.notes, Loadable note) :
    ∀ note ∈ notesToLoad contents criterion options, Loadable note :=
  fun note member => loadable note (List.mem_filter.mp (mem_selected_of_mem_notesToLoad member)).1

/-- A search whose limit lets everything through loads all notes that it selects. -/
theorem mem_notesToLoad_iff (fromFirst : options.offset = 0)
    (roomy : (selected contents.notes criterion).length ≤ options.effectiveLimit) (note : Note) :
    note ∈ notesToLoad contents criterion options ↔ note ∈ selected contents.notes criterion := by
  have perm := bestFirst_perm contents criterion
  have whole : notesToLoad contents criterion options = bestFirst contents criterion := by
    unfold notesToLoad
    dsimp only
    split
    · rw [fromFirst, List.drop_zero, List.take_of_length_le (perm.length_eq.trans_le roomy)]
    · rfl
  rw [whole, perm.mem_iff]

/-- A search by a key loads all notes that it selects. -/
theorem mem_notesToLoad_iff_of_key (plain : options.sortField ≠ .relevance) (note : Note) :
    note ∈ notesToLoad contents criterion options ↔ note ∈ selected contents.notes criterion := by
  have whole : notesToLoad contents criterion options = bestFirst contents criterion := by
    unfold notesToLoad
    dsimp only
    split
    · exact absurd (by assumption) plain
    · rfl
  rw [whole, (bestFirst_perm contents criterion).mem_iff]

variable [PatternEngine] {now : Time.Instant}

theorem find_of_criterion (translated : optionsCriterion now options = .ok criterion) :
    find contents now options =
      match (notesToLoad contents criterion options).findSome? loadFault? with
      | some fault => .error (fault.wrap "find" "")
      | none => .ok (resultsOf contents criterion options) := by
  rw [find, translated]
  rfl

theorem find_eq_resultsOf (translated : optionsCriterion now options = .ok criterion)
    (loadable : ∀ note ∈ notesToLoad contents criterion options, Loadable note) :
    find contents now options = .ok (resultsOf contents criterion options) := by
  rw [find_of_criterion translated, findSome?_loadFault?_eq_none_iff.mpr loadable]

/-- A search that loads a note that is nested too deep fails. -/
theorem exists_find_fault (translated : optionsCriterion now options = .ok criterion) {note : Note}
    (member : note ∈ notesToLoad contents criterion options) (tooDeep : ¬Loadable note) :
    ∃ fault, find contents now options = .error fault := by
  rw [find_of_criterion translated]
  cases failed : (notesToLoad contents criterion options).findSome? loadFault? with
  | some fault => exact ⟨_, rfl⟩
  | none => exact absurd (findSome?_loadFault?_eq_none_iff.mp failed note member) tooDeep

/-- A search that answers has loaded its notes. -/
theorem exists_of_find_eq_ok {results : Results} (found : find contents now options = .ok results) :
    ∃ criterion, optionsCriterion now options = .ok criterion ∧
      (∀ note ∈ notesToLoad contents criterion options, Loadable note) ∧
      resultsOf contents criterion options = results := by
  obtain ⟨criterion, translated⟩ : ∃ criterion, optionsCriterion now options = .ok criterion := by
    cases meant : optionsCriterion now options with
    | ok criterion => exact ⟨criterion, rfl⟩
    | error fault =>
        rw [find, meant] at found
        cases found
  rw [find_of_criterion translated] at found
  cases failed : (notesToLoad contents criterion options).findSome? loadFault? with
  | some fault =>
      rw [failed] at found
      cases found
  | none =>
      rw [failed] at found
      exact ⟨criterion, translated, findSome?_loadFault?_eq_none_iff.mp failed,
        Except.ok.inj found⟩

end Search

theorem get_of_find? {contents : Contents} {path : String} {note : Note}
    (first : contents.notes.find? (hasPath path) = some note) :
    get contents path = (loaded note).mapError (Fault.wrap "find_by_path" path) := by
  rw [get, first]

namespace Store

/-- A note that is added to a store that is ready is the one that is loaded by its path. -/
theorem exists_add_get {store : Store} {name : String} (ready : store.Ready)
    (isOpen : (store.reading name).isSome) (may : store.mayWrite name) {note : Note}
    (short : Indexable note.path) :
    ∃ after, store.add name false note = .ok after ∧
      after.get name false note.path =
        (loaded note).mapError (Fault.wrap "find_by_path" note.path) := by
  rcases store.write_error_or_ok name false "add" note.path
      (fun writer => (writer.remove note.path).add [note]) with
    ⟨fault, _, notAdmitted⟩ | ⟨written, _⟩
  · exact absurd ⟨rfl, isOpen, may⟩ notAdmitted
  refine ⟨_, written, ?_⟩
  have published := published_commit isOpen ((store.writerFor.remove note.path).add [note])
  generalize store.commit name ((store.writerFor.remove note.path).add [note]) = after at *
  have notes : after.committed.notes =
      (store.writerFor.notes.filter fun other => !hasPath note.path other) ++ [note] := by
    rw [published.committed]
    exact Writer.notes_commit_add ready.atRest note
  have seen : after.view name false = .ok after.committed := by
    apply view_of_reading
    rw [published.reading, if_pos rfl]
  have found : after.committed.notes.find? (hasPath note.path) = some note := by
    have isFound := (hasPath_eq_true_iff note.path note).mpr ⟨rfl, short⟩
    rw [notes, List.find?_append, List.find?_eq_none.mpr, Option.none_or,
      List.find?_singleton, if_pos isFound]
    intro other member isOther
    rw [List.mem_filter, isOther] at member
    exact Bool.false_ne_true member.2
  simp only [get, seen]
  exact get_of_find? found

end Store

end Index
end Commonplace
