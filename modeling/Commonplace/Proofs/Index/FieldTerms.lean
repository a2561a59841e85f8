import Commonplace.Index.Meaning
import Commonplace.Proofs.Index.Patterns
import Commonplace.Proofs.Index.Stored
import Commonplace.Proofs.Note.Values

namespace Commonplace
namespace Index

/-!
# What the terms of a note say about its fields

An index knows a note by its terms only.  The terms of a transparent note say all that there is to
know of its tags, its path, its metadata, its dates and its words: no value is too long to be
indexed, no line feed is in the way of a pattern, and the key of a metadata term ends at its first
equals sign.
-/

/-! ## Transparent notes -/

/-- Whether a date is held as it is. -/
structure IsHeld (instant : Time.Instant) : Prop where
  whole : instant.nanoseconds = 0
  holdable : Holdable instant

theorem heldInstant_of_isHeld {instant : Time.Instant} (held : IsHeld instant) :
    heldInstant instant = instant := by
  rw [heldInstant_of_holdable held.holdable, ← held.whole]

/-- Whether a metadata key is trimmed and has no equals sign. -/
structure IsKey (key : String) : Prop where
  trimmed : Text.trim key = key
  noEquals : '=' ∉ key.toList

/-- Whether no key of a note could be taken for another by a term: they are distinct, trimmed and in
lower case, and have no equals sign. -/
structure Keyed (note : Note) : Prop where
  keysApart : (note.metadata.map Prod.fst).Nodup
  keys : ∀ entry ∈ note.metadata, IsKey entry.1
  lowKeys : ∀ entry ∈ note.metadata, Text.lower entry.1 = entry.1

/-- The slots in which notes are looked for by their values. -/
def askedSlots : List ValueSlot :=
  [.pathLower, .tags, .metadata, .presence]

/-- Whether nothing in a note is blurred by its terms: there is no line feed in the way of a
pattern, no key that a term could take for another, and no date that would be held as another. -/
structure Regular (note : Note) : Prop where
  path : note.path ≠ ""
  keysApart : (note.metadata.map Prod.fst).Nodup
  keys : ∀ entry ∈ note.metadata, IsKey entry.1
  lowKeys : ∀ entry ∈ note.metadata, Text.lower entry.1 = entry.1
  pathLine : '\n' ∉ note.path.toList
  tagLines : ∀ tag ∈ note.tags, '\n' ∉ tag.toList
  metadataLines : ∀ entry ∈ note.metadata, ∀ text ∈ entry.2.flatten, '\n' ∉ text.toList
  created : ∀ instant ∈ note.created, IsHeld instant
  modified : ∀ instant ∈ note.modified, IsHeld instant

/-- Whether the terms of a note tell its fields: it is regular, and no value is too long. -/
structure Transparent (note : Note) : Prop extends Regular note where
  short : ∀ slot ∈ askedSlots, ∀ value ∈ slot.values note, value.utf8ByteSize ≤ largestValue

theorem Regular.keyed {note : Note} (regular : Regular note) : Keyed note :=
  ⟨regular.keysApart, regular.keys, regular.lowKeys⟩

namespace Transparent

variable {note : Note}

/-- Nothing is left out of an asked slot. -/
theorem terms_eq (transparent : Transparent note) {slot : ValueSlot} (asked : slot ∈ askedSlots) :
    slot.terms note = slot.values note := by
  rw [ValueSlot.terms, List.filter_eq_self]
  intro value member
  exact decide_eq_true (transparent.short slot asked value member)

theorem date_isHeld (transparent : Transparent note) (field : Field) :
    ∀ instant ∈ note.date field, IsHeld instant := by
  cases field with
  | created => exact transparent.created
  | modified => exact transparent.modified
  | path | title | body | lead | tags | checksum | metadata =>
      intro instant member
      cases member

end Transparent

/-! ## Metadata -/

/-- Two lists with the same first mark are equal before it and after it. -/
theorem append_mark_inj {item : Type} {mark : item} {first second firstRest secondRest : List item}
    (firstFree : mark ∉ first) (secondFree : mark ∉ second)
    (same : first ++ mark :: firstRest = second ++ mark :: secondRest) :
    first = second ∧ firstRest = secondRest := by
  induction first generalizing second with
  | nil =>
      cases second with
      | nil => exact ⟨rfl, (List.cons.inj same).2⟩
      | cons head tail =>
          have here := (List.cons.inj same).1
          rw [here] at secondFree
          exact absurd List.mem_cons_self secondFree
  | cons head tail inductionHypothesis =>
      cases second with
      | nil =>
          have here := (List.cons.inj same).1
          rw [here] at firstFree
          exact absurd List.mem_cons_self firstFree
      | cons other others =>
          rcases List.cons.inj same with ⟨rfl, later⟩
          have parts := inductionHypothesis
            (fun member => firstFree (List.mem_cons_of_mem _ member))
            (fun member => secondFree (List.mem_cons_of_mem _ member)) later
          exact ⟨congrArg _ parts.1, parts.2⟩

/-- The key of a metadata term ends at its first equals sign. -/
theorem metadata_split {first second firstRest secondRest : String} (firstKey : IsKey first)
    (secondKey : IsKey second) :
    first ++ "=" ++ firstRest = second ++ "=" ++ secondRest ↔
      first = second ∧ firstRest = secondRest := by
  constructor
  · intro same
    have characters := congrArg String.toList same
    simp only [String.toList_append, List.append_assoc] at characters
    have parts := append_mark_inj firstKey.noEquals secondKey.noEquals characters
    exact ⟨String.toList_inj.mp parts.1, String.toList_inj.mp parts.2⟩
  · rintro ⟨rfl, rfl⟩
    rfl

namespace Keyed

variable {note : Note}

theorem metadataTerm_eq (keyed : Keyed note) {entry : String × Json}
    (member : entry ∈ note.metadata) {text : String} (inValue : text ∈ entry.2.flatten) :
    metadataTerm entry.1 text = entry.1 ++ "=" ++ Text.lower text := by
  rw [metadataTerm, (keyed.keys entry member).trimmed, keyed.lowKeys entry member,
    trim_of_mem_flatten entry.2 inValue]

/-- The metadata terms that begin with a key are those of its values. -/
theorem mem_metadataTerms (keyed : Keyed note) {key : String} (isKey : IsKey key)
    (rest : String) :
    key ++ "=" ++ rest ∈ metadataTerms note ↔
      ∃ text ∈ note.metadataValues key, rest = Text.lower text := by
  unfold metadataTerms
  rw [List.mem_flatMap]
  constructor
  · rintro ⟨entry, member, inTerms⟩
    rcases List.mem_map.mp inTerms with ⟨text, inValue, same⟩
    rw [keyed.metadataTerm_eq member inValue,
      metadata_split (keyed.keys entry member) isKey] at same
    rcases same with ⟨sameKey, sameRest⟩
    refine ⟨text, ?_, sameRest.symm⟩
    exact (mem_metadataValues keyed.keysApart key text).mpr ⟨entry, member, sameKey, inValue⟩
  · rintro ⟨text, member, rfl⟩
    rcases (mem_metadataValues keyed.keysApart key text).mp member with
      ⟨entry, inMetadata, rfl, inValue⟩
    refine ⟨entry, inMetadata, List.mem_map.mpr ⟨text, inValue, ?_⟩⟩
    exact keyed.metadataTerm_eq inMetadata inValue

end Keyed

/-! ## Patterns in fields -/

theorem exists_mem_congr {item : Type} {items : List item} {first second : item -> Prop}
    (same : ∀ entry ∈ items, first entry ↔ second entry) :
    (∃ entry ∈ items, first entry) ↔ ∃ entry ∈ items, second entry :=
  exists_congr fun entry => and_congr_right fun member => same entry member

/-- Whether a field holds values that are compared as a whole and in lower case. -/
def holdsValues : Field -> Bool
  | .tags | .path | .metadata _ => true
  | .title | .body | .lead | .created | .modified | .checksum => false

/-- Whether a field is not metadata, or metadata under a key that is one. -/
def HasKey (field : Field) : Prop :=
  ∀ key, field = .metadata key -> IsKey key

theorem textValues_of_ne {text : String} (notEmpty : text ≠ "") :
    Note.textValues text = [text] := by
  rw [Note.textValues, if_neg]
  simpa using notEmpty

namespace Transparent

variable {note : Note}

theorem values_path (transparent : Transparent note) : note.values .path = [note.path] :=
  textValues_of_ne transparent.path

/-- No line feed is in the values of a field that holds values. -/
theorem noBreak (transparent : Transparent note) {field : Field} (valued : holdsValues field = true)
    {text : String} (member : text ∈ note.values field) : '\n' ∉ text.toList := by
  cases field with
  | tags => exact transparent.tagLines text member
  | path =>
      rw [transparent.values_path, List.mem_singleton] at member
      rw [member]
      exact transparent.pathLine
  | metadata key =>
      rcases (mem_metadataValues transparent.keysApart key text).mp member with
        ⟨entry, inMetadata, _, inValue⟩
      exact transparent.metadataLines entry inMetadata text inValue
  | title | body | lead | created | modified | checksum => cases valued

/-- A pattern in a field that holds values selects the notes with a value that it accepts. -/
theorem selects_pattern [PatternEngine] (transparent : Transparent note) {field : Field}
    (valued : holdsValues field = true) (hasKey : HasKey field) {name : String}
    {shape : TermPattern} {criterion : Criterion}
    (found : patternCriterion name field shape = .ok criterion) :
    criterion.selects note = true ↔
      ∃ text ∈ note.values field, shape.accepts (Text.lower text) = true := by
  cases field with
  | tags =>
      rcases compiled_eq_ok.mp found with ⟨_, rfl⟩
      rw [Criterion.selects, PatternSlot.terms, transparent.terms_eq (by decide), ValueSlot.values,
        List.any_map, List.any_eq_true]
      rfl
  | path =>
      rcases compiled_eq_ok.mp found with ⟨_, rfl⟩
      rw [Criterion.selects, PatternSlot.terms, transparent.terms_eq (by decide), ValueSlot.values,
        transparent.values_path]
      simp
  | metadata key =>
      rcases compiled_eq_ok.mp found with ⟨_, rfl⟩
      have isKey := hasKey key rfl
      rw [Criterion.selects, PatternSlot.terms, transparent.terms_eq (by decide), ValueSlot.values,
        List.any_eq_true]
      simp only [TermPattern.accepts_ofText_append]
      constructor
      · rintro ⟨term, member, rest, rfl, accepted⟩
        rcases (transparent.keyed.mem_metadataTerms isKey rest).mp member with ⟨text, inValues, rfl⟩
        exact ⟨text, inValues, accepted⟩
      · rintro ⟨text, inValues, accepted⟩
        refine ⟨_, ?_, Text.lower text, rfl, accepted⟩
        exact (transparent.keyed.mem_metadataTerms isKey _).mpr ⟨text, inValues, rfl⟩
  | title | body | lead | created | modified | checksum => cases valued

end Transparent

theorem plainWords_empty : plainWords "" = [] := by
  decide

theorem any_textValues (text : String) (test : String -> Bool) :
    (∃ value ∈ Note.textValues text, ∃ word ∈ plainWords value, test word = true) ↔
      (plainWords text).any test = true := by
  by_cases empty : text = ""
  · subst empty
    rw [plainWords_empty]
    simp [Note.textValues]
  · rw [textValues_of_ne empty, List.any_eq_true]
    simp

/-- A pattern in a field with text selects the notes with a word that it accepts. -/
theorem selects_pattern_of_isText [PatternEngine] {note : Note} {field : Field}
    (isText : field.isText = true) {name : String} {shape : TermPattern} {criterion : Criterion}
    (found : patternCriterion name field shape = .ok criterion) :
    criterion.selects note = true ↔
      ∃ text ∈ note.values field, ∃ word ∈ plainWords text, shape.accepts word = true := by
  cases field with
  | title | lead | body =>
      rcases compiled_eq_ok.mp found with ⟨_, rfl⟩
      rw [Criterion.selects]
      exact (any_textValues _ shape.accepts).symm
  | path | tags | created | modified | checksum | metadata => cases isText

/-! ## Fields compared with values -/

theorem mem_of_mem_metadataKey {name : String} {character : Char}
    (member : character ∈ (Field.metadataKey name).toList) : character ∈ name.toList := by
  unfold Field.metadataKey at member
  cases found : Field.metadataMarks.findSome? fun mark => Field.withoutMark? mark name with
  | none =>
      rw [found] at member
      exact member
  | some key =>
      rw [found] at member
      rcases List.exists_of_findSome?_eq_some found with ⟨mark, _, without⟩
      unfold Field.withoutMark? at without
      split at without
      · rw [← Option.some.inj without, Option.getD_some, String.toList_ofList] at member
        exact List.mem_of_mem_drop member
      · cases without

/-- The key that a name stands for is in lower case. -/
theorem lower_of_ofName {name key : String} (metadata : Field.ofName name = .metadata key) :
    Text.lower key = key := by
  unfold Field.ofName at metadata
  dsimp only at metadata
  split at metadata
  · rename_i field isCore
    -- The fields with names of their own are no metadata.
    rw [metadata] at isCore
    unfold Field.coreName? at isCore
    split_ifs at isCore <;> cases isCore
  · split at metadata
    · cases metadata
    · rw [← Field.metadata.inj metadata]
      apply Text.lower_of_isLow
      intro character member
      exact Text.isLow_of_mem_lower (mem_of_mem_metadataKey member)

namespace Transparent

variable {note : Note}

/-- The criterion of equality selects the notes with a value that compares as equal. -/
theorem selects_equality [PatternEngine] (transparent : Transparent note) {field : Field}
    {value : String} (valued : holdsValues field = true) (hasKey : HasKey field)
    (lowKey : ∀ key, field = .metadata key -> Text.lower key = key)
    (trimmed : Text.trim value = value) {criterion : Criterion}
    (found : equalityCriterion field value = .ok criterion) :
    criterion.selects note = true ↔
      ∃ text ∈ note.values field,
        Note.compares field .equals (Text.lower value).toList (Text.lower text).toList = true := by
  cases field with
  | tags =>
      have asked := transparent.terms_eq (by decide : ValueSlot.tags ∈ askedSlots)
      rw [← Except.ok.inj found, Criterion.selects, asked, ValueSlot.values, List.contains_iff_mem,
        List.mem_map]
      apply exists_mem_congr
      intro text _
      change _ ↔ ((Text.lower text).toList == (Text.lower value).toList) = true
      rw [beq_iff_eq, String.toList_inj]
  | path =>
      have asked := transparent.terms_eq (by decide : ValueSlot.pathLower ∈ askedSlots)
      simp only [transparent.values_path, List.mem_singleton, exists_eq_left]
      change _ ↔ (if (Text.lower value).toList.getLast? == some '/' then
        (Text.lower value).toList.isPrefixOf (Text.lower note.path).toList
        else (Text.lower note.path).toList == (Text.lower value).toList) = true
      rw [equalityCriterion] at found
      -- A path that ends with a slash asks for all paths that start with it.
      split at found
      · rename_i slash
        rcases compiled_eq_ok.mp found with ⟨_, rfl⟩
        have free := isFree_of_not_mem (Text.not_mem_lower transparent.pathLine)
        rw [if_pos slash, Criterion.selects, PatternSlot.terms, asked, ValueSlot.values,
          List.any_cons, List.any_nil, Bool.or_false, pathPattern, Text.lower_lower,
          TermPattern.accepts_startingWith free]
      · rename_i noSlash
        rw [if_neg noSlash, ← Except.ok.inj found, Criterion.selects, asked, ValueSlot.values,
          List.contains_iff_mem, List.mem_singleton, beq_iff_eq, String.toList_inj]
        exact eq_comm
  | metadata key =>
      have isKey := hasKey key rfl
      have asked := transparent.terms_eq (by decide : ValueSlot.metadata ∈ askedSlots)
      rw [← Except.ok.inj found, Criterion.selects, asked, ValueSlot.values, metadataTerm,
        isKey.trimmed, lowKey key rfl, trimmed, List.contains_iff_mem,
        transparent.keyed.mem_metadataTerms isKey]
      apply exists_mem_congr
      intro text _
      change _ ↔ ((Text.lower text).toList == (Text.lower value).toList) = true
      rw [beq_iff_eq, String.toList_inj]
      exact eq_comm
  | title | body | lead | created | modified | checksum => cases valued

end Transparent

/-! ## Dates -/

/-- Whether an end of a window is held as it is. -/
def HeldBound : Time.Bound -> Prop
  | .included instant | .excluded instant => IsHeld instant
  | .unbounded => True

/-- Whether both ends of a window are held as they are. -/
structure HeldWindow (window : Time.Window) : Prop where
  start : HeldBound window.start
  stop : HeldBound window.stop

theorem map_heldInstant_of_heldBound {bound : Time.Bound} (held : HeldBound bound) :
    bound.map heldInstant = bound := by
  cases bound with
  | included instant => exact congrArg Time.Bound.included (heldInstant_of_isHeld held)
  | excluded instant => exact congrArg Time.Bound.excluded (heldInstant_of_isHeld held)
  | unbounded => rfl

/-- A held date lies in a held window just when it lies there as it is held. -/
theorem withinHeld_heldSecond {window : Time.Window} {instant : Time.Instant}
    (heldWindow : HeldWindow window) (held : IsHeld instant) :
    withinHeld window (heldSecond instant) = window.contains instant := by
  have same : (⟨heldSecond instant, 0⟩ : Time.Instant) = instant := heldInstant_of_isHeld held
  rw [withinHeld, map_heldInstant_of_heldBound heldWindow.start,
    map_heldInstant_of_heldBound heldWindow.stop, same]

/-- The criterion of a date selects the notes whose date lies in the window. -/
theorem Transparent.selects_dated {note : Note} (transparent : Transparent note) {field : Field}
    {slot : DateSlot} (isSlot : dateSlot? field = some slot) {window : Time.Window}
    (heldWindow : HeldWindow window) :
    (Criterion.dated slot window).selects note = (note.date field).any window.contains := by
  have seconds : slot.second note = (note.date field).map heldSecond := by
    cases field with
    | created | modified =>
        cases isSlot
        rfl
    | path | title | body | lead | tags | checksum | metadata => cases isSlot
  rw [Criterion.selects, seconds]
  cases date : note.date field with
  | none => rfl
  | some instant =>
      exact withinHeld_heldSecond heldWindow (transparent.date_isHeld field instant date)

theorem dateSlot?_of_isDate {field : Field} (isDate : field.isDate = true) :
    ∃ slot, dateSlot? field = some slot := by
  cases field with
  | created => exact ⟨.created, rfl⟩
  | modified => exact ⟨.modified, rfl⟩
  | path | title | body | lead | tags | checksum | metadata => cases isDate

theorem isDate_of_dateSlot? {field : Field} {slot : DateSlot}
    (isSlot : dateSlot? field = some slot) : field.isDate = true := by
  cases field with
  | created | modified => rfl
  | path | title | body | lead | tags | checksum | metadata => cases isSlot

end Index
end Commonplace
