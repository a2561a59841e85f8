import Commonplace.Index.Stored
import Commonplace.Proofs.Text.Lowering
import Mathlib.Data.List.Sort
import Mathlib.Data.String.Basic

namespace Commonplace

/-!
# The stored form of a note

An index gives a note back with its tags in lower case and its dates without parts of a second.
When the dates lie in the range of a 64-bit count and the metadata reads back as it was written,
nothing else changes, and a note that was stored before does not change at all.
-/

/-! ## Ascending lists -/

theorem mem_insertAscending (text other : String) (texts : List String) :
    other ∈ insertAscending text texts ↔ other = text ∨ other ∈ texts := by
  induction texts with
  | nil => simp [insertAscending]
  | cons head tail inductionHypothesis =>
      unfold insertAscending
      by_cases before : text < head
      · rw [if_pos before, List.mem_cons]
      · rw [if_neg before]
        by_cases same : text = head
        · rw [if_pos (beq_iff_eq.mpr same), same]
          simp
        · rw [if_neg (by simpa using same), List.mem_cons, inductionHypothesis, List.mem_cons]
          tauto

theorem pairwise_insertAscending (text : String) {texts : List String}
    (ascending : texts.Pairwise (· < ·)) : (insertAscending text texts).Pairwise (· < ·) := by
  induction texts with
  | nil => exact List.pairwise_singleton _ _
  | cons head tail inductionHypothesis =>
      have parts := List.pairwise_cons.mp ascending
      unfold insertAscending
      by_cases before : text < head
      · rw [if_pos before, List.pairwise_cons]
        refine ⟨?_, ascending⟩
        intro other member
        rcases List.mem_cons.mp member with rfl | later
        · exact before
        · exact lt_trans before (parts.1 other later)
      · rw [if_neg before]
        by_cases same : text = head
        · rw [if_pos (beq_iff_eq.mpr same)]
          exact ascending
        · rw [if_neg (by simpa using same), List.pairwise_cons]
          refine ⟨?_, inductionHypothesis parts.2⟩
          intro other member
          rcases (mem_insertAscending text other tail).mp member with rfl | later
          · exact lt_of_le_of_ne (not_lt.mp before) (Ne.symm same)
          · exact parts.1 other later

namespace Index

/-- Some tags as an index keeps them. -/
def storedTags (tags : List String) : List String :=
  tags.foldl (fun kept tag => insertAscending (Text.lower tag) kept) []

theorem foldl_insertAscending (tags kept : List String)
    (ascending : kept.Pairwise (· < ·)) :
    let tagged := tags.foldl (fun kept tag => insertAscending (Text.lower tag) kept) kept
    tagged.Pairwise (· < ·) ∧
      ∀ text, text ∈ tagged ↔ (∃ tag ∈ tags, text = Text.lower tag) ∨ text ∈ kept := by
  induction tags generalizing kept with
  | nil =>
      refine ⟨ascending, ?_⟩
      intro text
      simp
  | cons head tail inductionHypothesis =>
      have later := inductionHypothesis _ (pairwise_insertAscending (Text.lower head) ascending)
      refine ⟨later.1, ?_⟩
      intro text
      rw [List.foldl_cons, later.2 text, mem_insertAscending]
      simp only [List.exists_mem_cons_iff]
      exact or_left_comm.trans or_assoc.symm

theorem storedTags_ascending (tags : List String) : (storedTags tags).Pairwise (· < ·) :=
  (foldl_insertAscending tags [] .nil).1

theorem mem_storedTags (tags : List String) (text : String) :
    text ∈ storedTags tags ↔ ∃ tag ∈ tags, text = Text.lower tag := by
  have members := (foldl_insertAscending tags [] .nil).2 text
  simpa [storedTags] using members

/-- Tags that were stored stay as they are when they are stored again. -/
theorem storedTags_storedTags (tags : List String) :
    storedTags (storedTags tags) = storedTags tags := by
  apply (storedTags_ascending _).eq_of_mem_iff (storedTags_ascending _)
  intro text
  rw [mem_storedTags]
  constructor
  · rintro ⟨tag, member, rfl⟩
    rcases (mem_storedTags tags tag).mp member with ⟨original, inTags, rfl⟩
    rw [Text.lower_lower]
    exact member
  · intro member
    rcases (mem_storedTags tags text).mp member with ⟨original, inTags, rfl⟩
    exact ⟨_, member, (Text.lower_lower original).symm⟩

/-! ## Whole notes -/

/-- Whether a date is one that a 64-bit count of nanoseconds can hold. -/
def Holdable (instant : Time.Instant) : Prop :=
  -(countModulus / 2 : Int) ≤ instant.seconds * nanosecondsOfSecond ∧
    instant.seconds * nanosecondsOfSecond < (countModulus / 2 : Int)

instance (instant : Time.Instant) : Decidable (Holdable instant) :=
  inferInstanceAs (Decidable (_ ∧ _))

theorem heldInstant_of_holdable {instant : Time.Instant} (holdable : Holdable instant) :
    heldInstant instant = ⟨instant.seconds, 0⟩ := by
  rw [heldInstant, heldSecond_eq holdable.1 holdable.2]

/-- Whether a note can be stored without loss, apart from what storing is meant to drop. -/
structure Storable (note : Note) : Prop where
  created : ∀ instant ∈ note.created, Holdable instant
  modified : ∀ instant ∈ note.modified, Holdable instant
  metadata : heldFields note.metadata = note.metadata

/-- A date without its part of a second. -/
def wholeSecond (instant : Time.Instant) : Time.Instant :=
  ⟨instant.seconds, 0⟩

theorem map_heldInstant {date : Option Time.Instant}
    (holdable : ∀ instant ∈ date, Holdable instant) :
    date.map heldInstant = date.map wholeSecond := by
  cases date with
  | none => rfl
  | some instant => exact congrArg some (heldInstant_of_holdable (holdable instant rfl))

theorem stored_eq {note : Note} (storable : Storable note) :
    stored note =
      { note with
        tags := storedTags note.tags
        created := note.created.map wholeSecond
        modified := note.modified.map wholeSecond } := by
  rw [stored, storable.metadata, map_heldInstant storable.created,
    map_heldInstant storable.modified]
  rfl

theorem holdable_wholeSecond {date : Option Time.Instant}
    (holdable : ∀ instant ∈ date, Holdable instant) :
    ∀ instant ∈ date.map wholeSecond, Holdable instant := by
  intro instant member
  rcases Option.map_eq_some_iff.mp member with ⟨original, held, rfl⟩
  exact holdable original held

theorem storable_stored {note : Note} (storable : Storable note) : Storable (stored note) := by
  rw [stored_eq storable]
  exact ⟨holdable_wholeSecond storable.created, holdable_wholeSecond storable.modified,
    storable.metadata⟩

theorem map_wholeSecond_twice (date : Option Time.Instant) :
    (date.map wholeSecond).map wholeSecond = date.map wholeSecond := by
  cases date <;> rfl

/-- Storing a stored note changes nothing. -/
theorem stored_stored {note : Note} (storable : Storable note) :
    stored (stored note) = stored note := by
  rw [stored_eq (storable_stored storable), stored_eq storable]
  simp only [storedTags_storedTags, map_wholeSecond_twice]

mutual

/-- Whether a metadata value holds no number with a fraction. -/
def hasNoFraction : Json -> Bool
  | .fraction _ => false
  | .list items => haveNoFraction items
  | .object fields => fieldsHaveNoFraction fields
  | _ => true

/-- Whether some metadata values hold no number with a fraction. -/
def haveNoFraction : List Json -> Bool
  | [] => true
  | item :: rest => hasNoFraction item && haveNoFraction rest

/-- Whether the values of some keys hold no number with a fraction. -/
def fieldsHaveNoFraction : List (String × Json) -> Bool
  | [] => true
  | field :: rest => hasNoFraction field.2 && fieldsHaveNoFraction rest

end

mutual

theorem heldValue_of_hasNoFraction (value : Json) (plain : hasNoFraction value = true) :
    heldValue value = value := by
  cases value with
  | fraction => simp [hasNoFraction] at plain
  | list items =>
      rw [hasNoFraction] at plain
      rw [heldValue, heldItems_of_haveNoFraction items plain]
  | object fields =>
      rw [hasNoFraction] at plain
      rw [heldValue, heldFields_of_haveNoFraction fields plain]
  | null | bool | whole | text => simp [heldValue]

theorem heldItems_of_haveNoFraction (items : List Json) (plain : haveNoFraction items = true) :
    heldItems items = items := by
  cases items with
  | nil => simp [heldItems]
  | cons item rest =>
      rw [haveNoFraction, Bool.and_eq_true] at plain
      rw [heldItems, heldValue_of_hasNoFraction item plain.1,
        heldItems_of_haveNoFraction rest plain.2]

/-- Metadata without fractions reads back as it was written. -/
theorem heldFields_of_haveNoFraction (fields : List (String × Json))
    (plain : fieldsHaveNoFraction fields = true) : heldFields fields = fields := by
  cases fields with
  | nil => simp [heldFields]
  | cons field rest =>
      rw [fieldsHaveNoFraction, Bool.and_eq_true] at plain
      rw [heldFields, heldValue_of_hasNoFraction field.2 plain.1,
        heldFields_of_haveNoFraction rest plain.2]

end

end Index
end Commonplace
