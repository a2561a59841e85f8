import Commonplace.Note.Field
import Commonplace.Proofs.Note.Normalised
import Commonplace.Proofs.Note.Values

namespace Commonplace

/-!
# Which fields have a value

A note lists the fields that have a value under their presence keys.  The list and the values are
found in different ways, and both agree with what there is in the note: a text that is not empty, a
tag, a date, or metadata with something in it that is a value by itself.  Different fields have
different presence keys, so no field is listed in place of another.
-/

/-! ## Metadata -/

/-- Whether there is something in metadata that is a value by itself: a text that is not blank, a
number or a truth value, however deep in lists.  Nulls and objects hold no value. -/
inductive Json.HoldsValue : Json -> Prop where
  | text {value : String} (notBlank : Text.isBlankText value = false) : HoldsValue (.text value)
  | bool (value : Bool) : HoldsValue (.bool value)
  | whole (value : Int) : HoldsValue (.whole value)
  | fraction (value : Float) : HoldsValue (.fraction value)
  | list {items : List Json} {item : Json} (member : item ∈ items) (holds : HoldsValue item) :
      HoldsValue (.list items)

mutual

theorem Json.flatten_ne_nil_iff (value : Json) : value.flatten ≠ [] ↔ value.HoldsValue := by
  cases value with
  | null | object =>
      rw [flatten]
      exact ⟨fun some => absurd rfl some, nofun⟩
  | bool value => exact ⟨fun _ => .bool value, fun _ => by rw [flatten]; exact List.cons_ne_nil _ _⟩
  | whole value =>
      exact ⟨fun _ => .whole value, fun _ => by rw [flatten]; exact List.cons_ne_nil _ _⟩
  | fraction value =>
      exact ⟨fun _ => .fraction value, fun _ => by rw [flatten]; exact List.cons_ne_nil _ _⟩
  | text value =>
      rw [flatten]
      cases blank : Text.isBlankText value with
      | true =>
          rw [if_pos rfl]
          constructor
          · exact fun some => absurd rfl some
          · rintro ⟨notBlank⟩
            rw [blank] at notBlank
            cases notBlank
      | false =>
          rw [if_neg Bool.false_ne_true]
          exact ⟨fun _ => .text blank, fun _ => List.cons_ne_nil _ _⟩
  | list items =>
      rw [flatten, flattenItems_ne_nil_iff]
      constructor
      · rintro ⟨item, member, holds⟩
        exact .list member holds
      · rintro ⟨⟩
        exact ⟨_, ‹_›, ‹_›⟩

theorem Json.flattenItems_ne_nil_iff (items : List Json) :
    Json.flattenItems items ≠ [] ↔ ∃ item ∈ items, item.HoldsValue := by
  cases items with
  | nil =>
      rw [flattenItems]
      exact ⟨fun some => absurd rfl some, nofun⟩
  | cons item rest =>
      have first := Json.flatten_ne_nil_iff item
      have later := Json.flattenItems_ne_nil_iff rest
      rw [flattenItems, ne_eq, List.append_eq_nil_iff, not_and_or, ← ne_eq, ← ne_eq, first, later,
        List.exists_mem_cons_iff]

end

/-! ## Presence keys -/

namespace Field

theorem core_or_metadata (field : Field) : field ∈ core ∨ ∃ key, field = metadata key := by
  cases field with
  | metadata key => exact .inr ⟨key, rfl⟩
  | path | title | body | lead | tags | created | modified | checksum => exact .inl (by decide)

/-- No presence key of a field that is not metadata looks like one of metadata. -/
theorem presenceKey_of_mem_core : ∀ field ∈ core,
    "meta:".toList.isPrefixOf field.presenceKey.toList = false := by
  decide

theorem presenceKey_core_inj : ∀ first ∈ core, ∀ second ∈ core,
    first.presenceKey = second.presenceKey → first = second := by
  decide

theorem presenceKey_metadata_ne {field : Field} (isCore : field ∈ core) (key : String) :
    (metadata key).presenceKey ≠ field.presenceKey := by
  intro same
  have marked := presenceKey_of_mem_core field isCore
  rw [← same, presenceKey, String.toList_append, List.isPrefixOf_iff_prefix.mpr] at marked
  · cases marked
  · exact List.prefix_append _ _

/-- Different fields have different presence keys. -/
theorem presenceKey_injective : Function.Injective presenceKey := by
  intro first second same
  rcases core_or_metadata first with firstCore | ⟨firstKey, rfl⟩ <;>
    rcases core_or_metadata second with secondCore | ⟨secondKey, rfl⟩
  · exact presenceKey_core_inj first firstCore second secondCore same
  · exact absurd same.symm (presenceKey_metadata_ne firstCore secondKey)
  · exact absurd same (presenceKey_metadata_ne secondCore firstKey)
  · rw [presenceKey, presenceKey, String.append_right_inj] at same
    rw [same]

end Field

/-! ## Notes -/

namespace Note

/-- Whether the metadata of a note is under distinct keys in lower case. -/
structure HasLowKeys (note : Note) : Prop where
  apart : (note.metadata.map Prod.fst).Nodup
  low : ∀ entry ∈ note.metadata, Text.lower entry.1 = entry.1

/-- Whether there is a value in a field of a note. -/
inductive HasValue (note : Note) : Field -> Prop where
  | path (notEmpty : note.path ≠ "") : HasValue note .path
  | title (notEmpty : note.title ≠ "") : HasValue note .title
  | body (notEmpty : note.body ≠ "") : HasValue note .body
  | lead (notEmpty : note.lead ≠ "") : HasValue note .lead
  | tags {tag : String} (member : tag ∈ note.tags) : HasValue note .tags
  | created {instant : Time.Instant} (dated : note.created = some instant) : HasValue note .created
  | modified {instant : Time.Instant} (dated : note.modified = some instant) :
      HasValue note .modified
  | checksum (notEmpty : note.checksum ≠ "") : HasValue note .checksum
  | metadata {key : String} {value : Json} (member : (key, value) ∈ note.metadata)
      (holds : value.HoldsValue) : HasValue note (.metadata key)

theorem textValues_ne_nil_iff (text : String) : textValues text ≠ [] ↔ text ≠ "" := by
  rw [textValues, ne_eq, ite_eq_left_iff, String.isEmpty_iff]
  simp

theorem dateValues_ne_nil_iff (date : Option Time.Instant) :
    dateValues date ≠ [] ↔ ∃ instant, date = some instant := by
  cases date <;> simp [dateValues]

/-- A field has values where there is a value in it. -/
theorem HasValue.values_ne_nil {note : Note} (lowKeys : note.HasLowKeys) {field : Field}
    (hasValue : note.HasValue field) : note.values field ≠ [] := by
  cases hasValue with
  | path notEmpty | title notEmpty | body notEmpty | lead notEmpty | checksum notEmpty =>
      exact (textValues_ne_nil_iff _).mpr notEmpty
  | created dated | modified dated => exact (dateValues_ne_nil_iff _).mpr ⟨_, dated⟩
  | tags member => exact List.ne_nil_of_mem member
  | metadata member holds =>
      rw [values, metadataValues, (findEntry_eq_some_iff lowKeys.apart _ _).mpr member]
      exact (Json.flatten_ne_nil_iff _).mpr holds

/-- Only where there is a value a field has values. -/
theorem values_ne_nil_iff {note : Note} (lowKeys : note.HasLowKeys) (field : Field) :
    note.values field ≠ [] ↔ note.HasValue field := by
  refine ⟨fun some => ?_, fun hasValue => hasValue.values_ne_nil lowKeys⟩
  cases field with
  | path => exact .path ((textValues_ne_nil_iff _).mp some)
  | title => exact .title ((textValues_ne_nil_iff _).mp some)
  | body => exact .body ((textValues_ne_nil_iff _).mp some)
  | lead => exact .lead ((textValues_ne_nil_iff _).mp some)
  | checksum => exact .checksum ((textValues_ne_nil_iff _).mp some)
  | created => exact .created ((dateValues_ne_nil_iff _).mp some).choose_spec
  | modified => exact .modified ((dateValues_ne_nil_iff _).mp some).choose_spec
  | tags => exact .tags (List.exists_mem_of_ne_nil _ some).choose_spec
  | metadata key =>
      rw [values, metadataValues] at some
      cases found : findEntry key note.metadata with
      | none =>
          rw [found] at some
          exact absurd rfl some
      | some value =>
          rw [found] at some
          exact .metadata ((findEntry_eq_some_iff lowKeys.apart key value).mp found)
            (value.flatten_ne_nil_iff.mp some)

/-- A note lists the fields in which there is a value. -/
theorem mem_presentFields_iff {note : Note} (lowKeys : note.HasLowKeys) (field : Field) :
    field.presenceKey ∈ note.presentFields ↔ note.HasValue field := by
  have someValues := values_ne_nil_iff lowKeys
  -- The keys of metadata are listed in lower case, and that is how they stand in the note.
  have listedKeys : ((note.metadata.filter fun entry => !entry.2.flatten.isEmpty).map
      fun entry => "meta:" ++ Text.lower entry.1) =
        (note.metadata.filter fun entry => !entry.2.flatten.isEmpty).map
          fun entry => (Field.metadata entry.1).presenceKey := by
    apply List.map_congr_left
    intro entry member
    rw [lowKeys.low entry (List.mem_of_mem_filter member), Field.presenceKey]
  rw [presentFields, listedKeys, List.mem_append, List.mem_map_of_injective Field.presenceKey_injective]
  constructor
  · rintro (isCore | isListed)
    · have some := (List.mem_filter.mp isCore).2
      exact (someValues field).mp (by simpa using some)
    · rcases List.mem_map.mp isListed with ⟨entry, member, same⟩
      rw [← Field.presenceKey_injective same]
      rcases List.mem_filter.mp member with ⟨inNote, some⟩
      exact .metadata inNote (entry.2.flatten_ne_nil_iff.mp (by simpa using some))
  · intro hasValue
    rcases field.core_or_metadata with isCore | ⟨key, rfl⟩
    · refine .inl (List.mem_filter.mpr ⟨isCore, ?_⟩)
      have some := (someValues field).mpr hasValue
      simpa using some
    · cases hasValue with
      | @metadata _ value member holds =>
      refine .inr (List.mem_map.mpr ⟨(key, value), List.mem_filter.mpr ⟨member, ?_⟩, rfl⟩)
      have some := value.flatten_ne_nil_iff.mpr holds
      simpa using some

/-! ## Notes that are read -/

/-- Whether keys stand in ascending order. -/
def AreAscending {value : Type} (entries : List (String × value)) : Prop :=
  entries.Pairwise fun first second => first.1 < second.1

theorem map_fst_setEntry {value : Type} (key : String) (entry : value)
    (entries : List (String × value)) :
    (setEntry key entry entries).map Prod.fst = insertAscending key (entries.map Prod.fst) := by
  induction entries with
  | nil => rfl
  | cons head tail inductionHypothesis =>
      unfold Commonplace.setEntry
      rw [List.map_cons, insertAscending]
      split
      · rfl
      · split
        next same => rw [List.map_cons, beq_iff_eq.mp same]
        next => rw [List.map_cons, inductionHypothesis]

theorem AreAscending.setEntry {value : Type} {entries : List (String × value)}
    (ascending : AreAscending entries) (key : String) (entry : value) :
    AreAscending (setEntry key entry entries) := by
  apply List.pairwise_map.mp
  rw [map_fst_setEntry]
  exact pairwise_insertAscending key (List.pairwise_map.mpr ascending)

theorem AreAscending.nodup {value : Type} {entries : List (String × value)}
    (ascending : AreAscending entries) : (entries.map Prod.fst).Nodup :=
  List.pairwise_map.mpr (ascending.imp ne_of_lt)

theorem ascending_metadataIn (entries : List (Yaml.Value × Yaml.Value)) :
    AreAscending (metadataIn entries) := by
  have behind : ∀ metadata : List (String × Json), AreAscending metadata →
      AreAscending (entries.foldl kept metadata) := by
    induction entries with
    | nil => exact fun _ ascending => ascending
    | cons entry rest inductionHypothesis =>
        intro metadata ascending
        apply inductionHypothesis
        unfold kept
        split
        · exact ascending
        · split
          · exact ascending
          · split
            · exact ascending.setEntry _ _
            · exact ascending
  exact behind [] .nil

/-- Every note that is read has distinct metadata keys in lower case. -/
theorem hasLowKeys_read (path content : String) (fileTime : Option Time.Instant)
    (now : Time.Instant) : (read path content fileTime now).HasLowKeys where
  apart := by
    rw [read_eq, ofParts]
    exact (ascending_metadataIn _).nodup
  low := fun field member => ((isNormalised_read path content fileTime now).keys field member).1

end Note
end Commonplace
