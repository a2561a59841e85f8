import Commonplace.Proofs.Index.Loading
import Commonplace.Proofs.Index.Runs
import Commonplace.Proofs.Note.HeaderKeys
import Commonplace.Proofs.Note.Normalised

namespace Commonplace
namespace Index
namespace Store

/-!
# Notes that are read and then stored

A note that was read from a text is normalised, and a store keeps it.  When it is added to a store
and loaded again, it is the same note but for the parts of a second in its dates.
-/

/-- What a store gives back for a note that was read from a text. -/
theorem stored_read {path content : String} {fileTime : Option Time.Instant} {now : Time.Instant}
    (storable : Storable (Note.read path content fileTime now)) :
    let note := Note.read path content fileTime now
    stored note =
      { note with
        created := note.created.map wholeSecond
        modified := note.modified.map wholeSecond } := by
  intro note
  rw [stored_eq storable, Note.storedTags_read]

/-- A note that is read from a text is normalised.  Added to a store, after any run in which no
rebuild succeeded through a writer that is not settled, it is loaded again without the parts of a
second in its dates and is otherwise the same.  This holds when its path is indexed, its metadata
has no fractions, and the whole seconds of its dates can be held.  Metadata that is nested too deep
cannot be loaded. -/
theorem ingested_note_is_kept [PatternEngine] (path content : String)
    (fileTime : Option Time.Instant) (now : Time.Instant) :
    let note := Note.read path content fileTime now
    Note.IsNormalised content note ∧
      ∀ (onDisk : Bool) (history : List Operation) (name : String),
        let store := (empty onDisk).run history
        Never UnsettledRebuild (empty onDisk) history → (store.reading name).isSome →
          store.mayWrite name → Indexable path →
          (∀ instant ∈ note.created, Holdable instant) →
          (∀ instant ∈ note.modified, Holdable instant) →
          fieldsHaveNoFraction note.metadata = true →
          ∃ after, store.add name false note = .ok after ∧
            (Loadable note → after.get name false path =
              .ok { note with
                created := note.created.map wholeSecond
                modified := note.modified.map wholeSecond }) ∧
            (¬Loadable note → ∃ fault, after.get name false path = .error fault) := by
  intro note
  refine ⟨Note.isNormalised_read path content fileTime now, ?_⟩
  intro onDisk history name store calm isOpen may short created modified whole
  have ready : store.Ready := (run_applies (ready_of_unheld rfl) calm).1
  have samePath : note.path = path := by
    rw [show note = _ from Note.read_eq path content fileTime now, Note.ofParts]
  have storable : Storable note := ⟨created, modified, heldFields_of_haveNoFraction _ whole⟩
  rcases exists_add_get ready isOpen may (samePath ▸ short : Indexable note.path) with
    ⟨after, added, answer⟩
  rw [samePath] at answer
  refine ⟨after, added, fun loadable => ?_, fun tooDeep => ?_⟩
  · rw [answer, loaded_of_loadable loadable, stored_read storable]
    rfl
  · rcases loaded_of_not_loadable tooDeep with ⟨fault, failed⟩
    exact ⟨_, by rw [answer, failed]; rfl⟩

open scoped PatternEngine

/-- A note that takes the place of another one is loaded again. -/
theorem weekly_note_is_kept :
    let content := "---\ntags: [Work, '#plan']\nStatus: open\ncreated: 2024-03-04T09:30:00.5Z\n---\nx"
    let note := Note.read "a.md" content none default
    let history : List Operation := [⟨"0", false, .open⟩, ⟨"0", false, .add (.ofPath "a.md")⟩]
    let store := (empty true).run history
    Never UnsettledRebuild (empty true) history ∧ (store.reading "0").isSome ∧
      store.mayWrite "0" ∧ Indexable "a.md" ∧ (∀ instant ∈ note.created, Holdable instant) ∧
      (∀ instant ∈ note.modified, Holdable instant) ∧ fieldsHaveNoFraction note.metadata = true ∧
      Loadable note ∧ note.tags = ["plan", "work"] ∧
      ∃ after, store.add "0" false note = .ok after ∧ after.get "0" false "a.md" =
        .ok { note with created := some ⟨1709544600, 0⟩ } := by
  intro content note history store
  have admitted : Never UnsettledRebuild (empty true) history ∧ (store.reading "0").isSome ∧
      store.mayWrite "0" ∧ Indexable "a.md" := by
    decide +kernel
  have read : note.created = some ⟨1709544600, 500000000⟩ ∧ note.modified = none ∧
      fieldsHaveNoFraction note.metadata = true ∧ Loadable note ∧ note.tags = ["plan", "work"] := by
    decide +kernel
  rcases admitted with ⟨calm, isOpen, may, short⟩
  rcases read with ⟨created, modified, whole, loadable, tags⟩
  have createdHeld : ∀ instant ∈ note.created, Holdable instant := by
    rw [created]
    decide
  have modifiedHeld : ∀ instant ∈ note.modified, Holdable instant := by
    rw [modified]
    nofun
  rcases (ingested_note_is_kept "a.md" content none default).2 true history "0" calm isOpen may
    short createdHeld modifiedHeld whole with ⟨after, added, kept, _⟩
  refine ⟨calm, isOpen, may, short, createdHeld, modifiedHeld, whole, loadable, tags, after,
    added, (kept loadable).trans ?_⟩
  change Except.ok { note with
    created := note.created.map wholeSecond, modified := note.modified.map wholeSecond } = _
  rw [created, modified]
  rfl

/-- A note with 127 lists within each other in its header. -/
def deepContent : String :=
  "---\ndata: " ++ String.ofList (List.replicate 127 '[') ++
    String.ofList (List.replicate 127 ']') ++ "\n---\nx\n"

theorem entries_deepContent : ∃ value,
    Frontmatter.entriesOf deepContent.toList = [(.text "data", value)] ∧
      value.toJson? = some (nestedLists 126) := by
  -- The header is evaluated once, and everything else follows from what was read.
  have parsed : (Frontmatter.entriesOf deepContent.toList).map (fun entry =>
      (entry.1.same (.text "data"), entry.2.toJson?.any (isNestedLists 126))) =
        [(true, true)] := by decide +kernel
  rcases List.map_eq_singleton_iff.mp parsed with ⟨⟨key, value⟩, entries, read⟩
  rcases Prod.mk.inj read with ⟨isData, isDeep⟩
  rcases (Option.any_eq_true _ _).mp isDeep with ⟨json, made, nested⟩
  have isKey : key = .text "data" := Yaml.same_text_iff.mp isData
  have isValue : value.toJson? = some json := made
  exact ⟨value, by rw [entries, isKey], by rw [isValue, eq_nestedLists nested]⟩

theorem hasNoFraction_nestedLists (count : Nat) : hasNoFraction (nestedLists count) = true := by
  induction count with
  | zero => rfl
  | succ count inductionHypothesis =>
      rw [nestedLists, hasNoFraction, haveNoFraction, inductionHypothesis]
      rfl

/-- A note that is read from this text has no dates.  It is added, but it cannot be loaded again. -/
theorem deep_note_is_not_kept :
    let note := Note.read "a.md" deepContent none default
    let store := (empty true).run [⟨"0", false, .open⟩]
    Indexable "a.md" ∧ note.created = none ∧ note.modified = none ∧
      fieldsHaveNoFraction note.metadata = true ∧
      ∃ after fault, store.add "0" false note = .ok after ∧
        after.get "0" false "a.md" = .error fault := by
  intro note store
  rcases entries_deepContent with ⟨value, entries, json⟩
  have read : note = Note.ofParts "a.md" [(.text "data", value)]
      (Frontmatter.bodyOf deepContent.toList) none default := by
    rw [← entries]
    exact Note.read_eq "a.md" deepContent none default
  have noDate : ∀ keys ∈ [["created", "date"], ["modified", "updated"]],
      Note.dateUnder [(.text "data", value)] default keys = none := by
    simp [Note.dateUnder, Frontmatter.text?, Frontmatter.get?, Yaml.Value.same]
  have metadata : Note.metadataIn [(.text "data", value)] = [("data", nestedLists 126)] := by
    have low : Text.lower "data" = "data" := by decide +kernel
    rw [Note.metadataIn, List.foldl_cons, List.foldl_nil, Note.kept]
    dsimp only [Yaml.Value.text?]
    rw [low, json]
    rfl
  have admitted : Indexable "a.md" ∧ (store.reading "0").isSome ∧ store.mayWrite "0" := by
    decide +kernel
  have calm : Never UnsettledRebuild (empty true) [⟨"0", false, .open⟩] := by decide +kernel
  have ready : store.Ready := (run_applies (ready_of_unheld rfl) calm).1
  rcases admitted with ⟨short, isOpen, may⟩
  have tooDeep : ¬Loadable note := by
    rw [Loadable, read, Note.ofParts, metadata]
    exact deepNote_not_loadable
  have path : note.path = "a.md" := by rw [read, Note.ofParts]
  rcases exists_add_get ready isOpen may (path ▸ short : Indexable note.path) with
    ⟨after, added, answer⟩
  rcases loaded_of_not_loadable tooDeep with ⟨fault, failed⟩
  rw [path, failed] at answer
  refine ⟨short, ?_, ?_, ?_, after, _, added, answer⟩
  · rw [read]
    exact noDate _ (by decide)
  · rw [read, Note.ofParts, noDate _ (by decide)]
    rfl
  · rw [read, Note.ofParts, metadata, fieldsHaveNoFraction, hasNoFraction_nestedLists]
    rfl

end Store
end Index
end Commonplace
