import Commonplace.Proofs.Index.Loading
import Mathlib.Data.Finmap
import Mathlib.Data.List.Find

namespace Commonplace
namespace Index

/-!
# A store as a catalogue

A store that is used through one handle is a finite map from paths to stored notes.  The map is
what the operations that succeeded make of it, one after another, and every answer that the handle
gives can be read off the map.  Entries that are nested too deep are counted, but they cannot be
loaded.
-/

/-- The stored notes of a store by their paths. -/
abbrev Catalogue :=
  Finmap fun _ : String => Note

namespace Catalogue

/-- A note as an entry of a catalogue. -/
def entry (note : Note) : Sigma fun _ : String => Note :=
  ⟨note.path, stored note⟩

/-- The catalogue of the notes of a source. -/
def ofSource (source : List Note) : Catalogue :=
  (source.map entry).toFinmap

end Catalogue

/-- What a request makes of the catalogue of a store when it succeeds.  A store in memory starts
anew when it is opened. -/
def Request.entered (onDisk : Bool) (request : Request) (catalogue : Catalogue) : Catalogue :=
  match request with
  | «open» => if onDisk then catalogue else ∅
  | add note => catalogue.insert note.path (stored note)
  | remove path => catalogue.erase path
  | request => (request.replacement?.map Catalogue.ofSource).getD catalogue

/-- The note that a request adds, if it does. -/
def Request.addition? : Request -> Option Note
  | add note => some note
  | _ => none

/-- Whether the paths that a request brings are indexed, and those of a source differ. -/
structure Request.IsProper (request : Request) : Prop where
  added : ∀ note ∈ request.addition?, Indexable note.path
  distinct : ∀ source ∈ request.replacement?, (source.map Note.path).Nodup
  indexable : ∀ source ∈ request.replacement?, ∀ note ∈ source, Indexable note.path

instance (request : Request) : Decidable request.IsProper :=
  decidable_of_iff
    ((∀ note ∈ request.addition?, Indexable note.path) ∧
      (∀ source ∈ request.replacement?, (source.map Note.path).Nodup) ∧
      ∀ source ∈ request.replacement?, ∀ note ∈ source, Indexable note.path)
    ⟨fun parts => ⟨parts.1, parts.2.1, parts.2.2⟩,
      fun proper => ⟨proper.added, proper.distinct, proper.indexable⟩⟩

/-! ## Notes and their catalogue -/

/-- A list of notes with distinct, indexed paths and its catalogue. -/
structure Represents (notes : List Note) (catalogue : Catalogue) : Prop where
  distinct : (notes.map Note.path).Nodup
  indexable : ∀ note ∈ notes, Indexable note.path
  lookup : ∀ path, catalogue.lookup path =
    (notes.find? fun note => note.path == path).map stored

theorem hasPath_of_indexable_note {note : Note} (short : Indexable note.path) (path : String) :
    hasPath path note = (note.path == path) := by
  rw [Bool.eq_iff_iff, hasPath_eq_true_iff, beq_iff_eq]
  constructor
  · exact fun found => found.1
  · intro same
    exact ⟨same, same ▸ short⟩

/-- Among notes with indexed paths, those that are not found by a path are those with another. -/
theorem filter_hasPath {notes : List Note} (indexable : ∀ note ∈ notes, Indexable note.path)
    (path : String) :
    (notes.filter fun note => !hasPath path note) =
      notes.filter fun note => note.path != path := by
  apply List.filter_congr
  intro note member
  rw [hasPath_of_indexable_note (indexable note member)]
  rfl

theorem represents_empty : Represents [] ∅ where
  distinct := List.nodup_nil
  indexable := fun _ member => nomatch member
  lookup := fun path => Finmap.lookup_empty path

theorem nodup_paths_filter {notes : List Note} (distinct : (notes.map Note.path).Nodup)
    (keep : Note -> Bool) : ((notes.filter keep).map Note.path).Nodup :=
  (List.filter_sublist.map Note.path).nodup distinct

theorem represents_remove {notes : List Note} {catalogue : Catalogue}
    (represents : Represents notes catalogue) (path : String) :
    Represents (notes.filter fun note => !hasPath path note) (catalogue.erase path) where
  distinct := nodup_paths_filter represents.distinct _
  indexable := fun note member => represents.indexable note (List.mem_filter.mp member).1
  lookup := by
    intro other
    rw [filter_hasPath represents.indexable, find?_filter_key Note.path]
    by_cases same : other = path
    · rw [if_pos same, same, Finmap.lookup_erase]
      rfl
    · rw [if_neg same, Finmap.lookup_erase_ne same, represents.lookup]

theorem represents_add {notes : List Note} {catalogue : Catalogue}
    (represents : Represents notes catalogue) {note : Note} (short : Indexable note.path) :
    Represents ((notes.filter fun other => !hasPath note.path other) ++ [note])
      (catalogue.insert note.path (stored note)) where
  distinct := by
    rw [filter_hasPath represents.indexable, List.map_append, List.nodup_append]
    refine ⟨nodup_paths_filter represents.distinct _, List.nodup_singleton _, ?_⟩
    intro path member other last
    rcases List.mem_map.mp member with ⟨kept, keptMember, rfl⟩
    rw [List.mem_singleton.mp last]
    exact bne_iff_ne.mp (List.mem_filter.mp keptMember).2
  indexable := by
    intro other member
    rcases List.mem_append.mp member with kept | new
    · exact represents.indexable other (List.mem_filter.mp kept).1
    · rw [List.mem_singleton.mp new]
      exact short
  lookup := by
    intro other
    rw [filter_hasPath represents.indexable, List.find?_append, find?_filter_key Note.path]
    by_cases same : other = note.path
    · rw [if_pos same, same, Finmap.lookup_insert]
      simp
    · have apart : (note.path == other) = false := beq_eq_false_iff_ne.mpr (Ne.symm same)
      rw [if_neg same, Finmap.lookup_insert_of_ne _ same, represents.lookup]
      simp [apart]

theorem dlookup_entry (source : List Note) (path : String) :
    (source.map Catalogue.entry).dlookup path =
      (source.find? fun note => note.path == path).map stored := by
  induction source with
  | nil => rfl
  | cons head tail inductionHypothesis =>
      by_cases same : head.path = path
      · subst same
        simp [Catalogue.entry]
      · have apart : (head.path == path) = false := beq_eq_false_iff_ne.mpr same
        rw [List.map_cons, Catalogue.entry, List.dlookup_cons_ne _ _ (Ne.symm same),
          List.find?_cons, apart]
        exact inductionHypothesis

theorem represents_ofSource {source : List Note} (distinct : (source.map Note.path).Nodup)
    (indexable : ∀ note ∈ source, Indexable note.path) :
    Represents source (Catalogue.ofSource source) where
  distinct := distinct
  indexable := indexable
  lookup := fun path => (Finmap.dlookup_list_toFinmap path _).trans (dlookup_entry source path)

/-- What a request does to the notes it does to their catalogue. -/
theorem represents_applied {notes : List Note} {catalogue : Catalogue}
    (represents : Represents notes catalogue) {request : Request} (proper : request.IsProper)
    (onDisk : Bool) :
    Represents (request.applied onDisk notes) (request.entered onDisk catalogue) := by
  have replaced : ∀ other : Request, other = request →
      Represents (other.replacement?.getD notes)
        ((other.replacement?.map Catalogue.ofSource).getD catalogue) := by
    rintro other rfl
    cases source : other.replacement? with
    | none => exact represents
    | some source =>
        exact represents_ofSource (proper.distinct _ (by assumption))
          (proper.indexable _ (by assumption))
  cases request with
  | «open» =>
      cases onDisk with
      | false => exact represents_empty
      | true => exact represents
  | add note => exact represents_add represents (proper.added note rfl)
  | remove path => exact represents_remove represents path
  | close | drop | get | find | count | stats | beginReindex => exact represents
  | reindex | finishReindex => exact replaced _ rfl

/-! ## Reading a catalogue off the notes -/

section Read

variable {notes : List Note} {catalogue : Catalogue}

theorem Represents.lookup_eq_some_iff (represents : Represents notes catalogue) (path : String)
    (found : Note) :
    catalogue.lookup path = some found ↔
      ∃ note ∈ notes, note.path = path ∧ stored note = found := by
  rw [represents.lookup, Option.map_eq_some_iff]
  constructor
  · rintro ⟨note, first, same⟩
    have samePath := List.find?_some first
    exact ⟨note, List.mem_of_find?_eq_some first, beq_iff_eq.mp samePath, same⟩
  · rintro ⟨note, member, rfl, same⟩
    refine ⟨note, ?_, same⟩
    cases first : notes.find? fun other => other.path == note.path with
    | none =>
        have absent := List.find?_eq_none.mp first note member
        simp at absent
    | some other =>
        have samePath := List.find?_some first
        exact congrArg some (List.inj_on_of_nodup_map represents.distinct
          (List.mem_of_find?_eq_some first) member (beq_iff_eq.mp samePath))

theorem Represents.keys_eq (represents : Represents notes catalogue) :
    catalogue.keys = (notes.map Note.path).toFinset := by
  ext path
  rw [Finmap.mem_keys, ← Finmap.lookup_isSome, Option.isSome_iff_exists, List.mem_toFinset,
    List.mem_map]
  constructor
  · rintro ⟨found, has⟩
    rcases (represents.lookup_eq_some_iff path found).mp has with ⟨note, member, same, _⟩
    exact ⟨note, member, same⟩
  · rintro ⟨note, member, same⟩
    exact ⟨stored note, (represents.lookup_eq_some_iff path _).mpr ⟨note, member, same, rfl⟩⟩

theorem Represents.lookup_of_mem (represents : Represents notes catalogue) {note : Note}
    (member : note ∈ notes) : catalogue.lookup note.path = some (stored note) :=
  (represents.lookup_eq_some_iff _ _).mpr ⟨note, member, rfl, rfl⟩

/-- A catalogue has as many entries as there are notes. -/
theorem Represents.card_keys (represents : Represents notes catalogue) :
    catalogue.keys.card = notes.length := by
  rw [represents.keys_eq, List.toFinset_card_of_nodup represents.distinct, List.length_map]

theorem Represents.find?_hasPath (represents : Represents notes catalogue) (path : String) :
    (notes.find? (hasPath path)).map stored = catalogue.lookup path := by
  rw [represents.lookup]
  congr 1
  apply List.find?_congr
  intro note member
  exact hasPath_of_indexable_note (represents.indexable note member) path

end Read

/-- A catalogue whose entries can all be loaded. -/
def Catalogue.IsLoadable (catalogue : Catalogue) : Prop :=
  ∀ path note, catalogue.lookup path = some note → Loadable note

section Get

variable {contents : Contents} {catalogue : Catalogue}
  (represents : Represents contents.notes catalogue) {path : String}

include represents

/-- A request for the note with a path finds no note just when there is no entry. -/
theorem get_of_lookup_eq_none (absent : catalogue.lookup path = none) :
    Index.get contents path = .error (.notFound path) := by
  rw [← represents.find?_hasPath, Option.map_eq_none_iff] at absent
  rw [Index.get, absent]

/-- What is loaded for a path is the note that was stored as the entry. -/
theorem exists_get_eq {note : Note} (listed : catalogue.lookup path = some note) :
    ∃ original, stored original = note ∧
      Index.get contents path = (loaded original).mapError (Fault.wrap "find_by_path" path) := by
  rw [← represents.find?_hasPath, Option.map_eq_some_iff] at listed
  rcases listed with ⟨original, found, same⟩
  exact ⟨original, same, get_of_find? found⟩

theorem get_of_loadable {note : Note} (listed : catalogue.lookup path = some note)
    (loadable : Loadable note) : Index.get contents path = .ok note := by
  rcases exists_get_eq represents listed with ⟨original, rfl, found⟩
  rw [found, loaded_of_loadable ((loadable_stored original).mp loadable)]
  rfl

theorem exists_get_fault {note : Note} (listed : catalogue.lookup path = some note)
    (tooDeep : ¬Loadable note) : ∃ fault, Index.get contents path = .error fault := by
  rcases exists_get_eq represents listed with ⟨original, rfl, found⟩
  rcases loaded_of_not_loadable (mt (loadable_stored original).mpr tooDeep) with ⟨fault, failed⟩
  exact ⟨_, by rw [found, failed]; rfl⟩

end Get

/-- What is left of an optional part of the options when all of it is empty. -/
theorem filter_toList_of_all {item : Type} {part : Option item} {isEmpty : item -> Bool}
    (empty : part.all isEmpty = true) : (part.toList.filter fun value => !isEmpty value) = [] := by
  cases part with
  | none => rfl
  | some value =>
      have plain : isEmpty value = true := empty
      simp [plain]

/-- Options that ask for nothing select everything. -/
theorem optionsCriterion_of_isEmpty [PatternEngine] {options : SearchOptions}
    (asksNothing : options.isEmpty) (now : Time.Instant) :
    optionsCriterion now options = .ok .everything := by
  simp only [SearchOptions.isEmpty, Bool.and_eq_true, List.isEmpty_iff,
    Option.isNone_iff_eq_none] at asksNothing
  rcases asksNothing with ⟨⟨⟨⟨⟨⟨⟨⟨⟨noQuery, noTags⟩, noExcludedTags⟩, noStart⟩, noExcludedPaths⟩,
    noCreatedAfter⟩, noCreatedBefore⟩, noModifiedAfter⟩, noModifiedBefore⟩, noMetadata⟩
  simp only [optionsCriterion, filter_toList_of_all noQuery, filter_toList_of_all noStart, noTags,
    noExcludedTags, noExcludedPaths, noCreatedAfter, noCreatedBefore, noModifiedAfter,
    noModifiedBefore, noMetadata]
  rfl

theorem selected_everything (notes : List Note) : selected notes .everything = notes :=
  List.filter_eq_self.mpr fun _ _ => rfl

/-- The answer to a request for the number of all notes. -/
theorem count_eq [PatternEngine] {contents : Contents} {catalogue : Catalogue}
    (represents : Represents contents.notes catalogue) {options : SearchOptions}
    (asksNothing : options.isEmpty) (now : Time.Instant) :
    Index.count contents now options = .ok catalogue.keys.card := by
  rw [Index.count, if_pos asksNothing, represents.card_keys]

/-- What is ranked is each note that is selected once, in its stored form. -/
theorem ranked_perm (contents : Contents) (criterion : Criterion) (field : SortField)
    (direction : SortDirection) :
    ((ranked contents criterion field direction).map Prod.snd).Perm
      ((selected contents.notes criterion).map stored) := by
  have sorted := List.mergeSort_perm (scored contents criterion) (listedFirst field direction)
  have notes : (scored contents criterion).map Prod.snd =
      (selected contents.notes criterion).map stored := by
    rw [scored, List.map_map]
    rfl
  rw [← notes]
  exact sorted.map Prod.snd

/-- The notes that a search for everything ranks are all notes in their stored form. -/
theorem ranked_everything (contents : Contents) (field : SortField) (direction : SortDirection) :
    ((ranked contents .everything field direction).map Prod.snd).Perm
      (contents.notes.map stored) := by
  have perm := ranked_perm contents .everything field direction
  rw [selected_everything] at perm
  exact perm

section Everything

variable [PatternEngine] {contents : Contents} {catalogue : Catalogue}
  (represents : Represents contents.notes catalogue) {options : SearchOptions}
  (asksNothing : options.isEmpty)

include represents asksNothing

/-- What a search for everything finds when the limit lets all of it through: every entry of the
catalogue once. -/
theorem find_everything (fromFirst : options.offset = 0)
    (roomy : catalogue.keys.card ≤ options.effectiveLimit) (loadable : catalogue.IsLoadable)
    (now : Time.Instant) :
    ∃ results, Index.find contents now options = .ok results ∧
      results.total = catalogue.keys.card ∧
      (results.hits.map fun hit => hit.note.path).Nodup ∧
      ∀ note, note ∈ results.hits.map Hit.note ↔ catalogue.lookup note.path = some note := by
  have found : Index.find contents now options = .ok (resultsOf contents .everything options) := by
    apply find_eq_resultsOf (optionsCriterion_of_isEmpty asksNothing now)
    intro note loads
    have member := mem_selected_of_mem_notesToLoad loads
    rw [selected_everything] at member
    exact (loadable_stored note).mp (loadable _ _ (represents.lookup_of_mem member))
  have perm := ranked_everything contents options.sortField options.sortDirection
  refine ⟨_, found, ?_⟩
  unfold resultsOf
  -- The order of the results does not matter: they are a rearrangement of the stored notes.
  generalize ranked contents .everything options.sortField options.sortDirection = all at perm
  have size : all.length = catalogue.keys.card := by
    have lengths := perm.length_eq
    rw [List.length_map, List.length_map] at lengths
    rw [lengths, represents.card_keys]
  have page : (all.drop options.offset).take options.effectiveLimit = all := by
    rw [fromFirst, List.drop_zero, List.take_of_length_le]
    rw [size]
    exact roomy
  simp only [page]
  refine ⟨size, ?_, ?_⟩
  · rw [List.map_map]
    change (all.map (Note.path ∘ Prod.snd)).Nodup
    rw [← List.map_map, (perm.map Note.path).nodup_iff, List.map_map]
    exact represents.distinct
  · intro note
    rw [List.map_map]
    change note ∈ all.map Prod.snd ↔ _
    rw [perm.mem_iff, List.mem_map, represents.lookup_eq_some_iff]
    constructor
    · rintro ⟨original, member, rfl⟩
      exact ⟨original, member, rfl, rfl⟩
    · rintro ⟨original, member, _, same⟩
      exact ⟨original, member, same⟩

/-- A search for everything fails when an entry cannot be loaded. -/
theorem exists_find_everything_fault (fromFirst : options.offset = 0)
    (roomy : catalogue.keys.card ≤ options.effectiveLimit) {path : String} {note : Note}
    (listed : catalogue.lookup path = some note) (tooDeep : ¬Loadable note) (now : Time.Instant) :
    ∃ fault, Index.find contents now options = .error fault := by
  rcases (represents.lookup_eq_some_iff path note).mp listed with ⟨original, member, _, rfl⟩
  have all : (selected contents.notes .everything).length ≤ options.effectiveLimit := by
    rw [selected_everything, ← represents.card_keys]
    exact roomy
  refine exists_find_fault (optionsCriterion_of_isEmpty asksNothing now)
    ((mem_notesToLoad_iff fromFirst all original).mpr ?_) (mt (loadable_stored original).mpr tooDeep)
  rw [selected_everything]
  exact member

end Everything

end Index
end Commonplace
