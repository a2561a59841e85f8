import Commonplace.Note.Reader
import Commonplace.Proofs.Note.Splitting

namespace Commonplace

/-!
# The parts of a note that is read

A text is split into a header and a body.  Every part of the note comes from the entries of the
header, from the body, or from what is known of the file.  The entries that say nothing about the
note itself are its metadata.
-/

namespace Frontmatter

/-- The entries of the header of a text, if it has one. -/
def entriesOf (content : List Char) : List (Yaml.Value × Yaml.Value) :=
  ((split content).1.map entries).getD []

/-- A text without its header. -/
def bodyOf (content : List Char) : List Char :=
  (split content).2

/-- A header and its body are parts of the text. -/
theorem split_parts (content : List Char) :
    (∀ header ∈ (split content).1, header <:+: content) ∧ bodyOf content <:+ content := by
  rw [bodyOf, split_eq]
  cases found : parts? content with
  | none => exact ⟨nofun, List.suffix_rfl⟩
  | some parts =>
      rcases parts?_eq_some_iff.mp found with ⟨rest, ⟨opening, _, rfl⟩, closing, rfl, _⟩
      have body : parts.2 <:+ parts.1 ++ (closing ++ parts.2) :=
        (List.suffix_append closing parts.2).trans (List.suffix_append parts.1 _)
      refine ⟨?_, body.trans (List.suffix_append opening _)⟩
      rintro _ ⟨⟩
      exact List.infix_append' opening parts.1 (closing ++ parts.2)

end Frontmatter

namespace Note

/-- The tags that a header states. -/
def statedTags (entries : List (Yaml.Value × Yaml.Value)) : List String :=
  ["tags", "tag"].flatMap fun key => ((Frontmatter.get? entries key).map tagsIn).getD []

/-- Puts an entry of a header to some metadata, unless it says something about the note itself. -/
def kept (metadata : List (String × Json)) (entry : Yaml.Value × Yaml.Value) :
    List (String × Json) :=
  match entry.1.text? with
  | none => metadata
  | some key =>
      if reservedKeys.contains (Text.lower key) then metadata
      else
        match entry.2.toJson? with
        | some value => setEntry (Text.lower key) value metadata
        | none => metadata

/-- The metadata in a header. -/
def metadataIn (entries : List (Yaml.Value × Yaml.Value)) : List (String × Json) :=
  entries.foldl kept []

/-- The note with a given header and body. -/
def ofParts (path : String) (entries : List (Yaml.Value × Yaml.Value)) (body : List Char)
    (fileTime : Option Time.Instant) (now : Time.Instant) : Note where
  path := path
  title := titleOf entries body path
  body := String.ofList body
  lead := String.ofList (Text.collapseChars (Text.firstParagraphChars body))
  tags := ((ofPath path).withTags (statedTags entries)).tags
  metadata := metadataIn entries
  created := dateUnder entries now ["created", "date"]
  modified := (dateUnder entries now ["modified", "updated"]).or fileTime
  checksum := ""

theorem withEntry_eq (note : Note) (entry : Yaml.Value × Yaml.Value) :
    withEntry note entry = { note with metadata := kept note.metadata entry } := by
  unfold withEntry kept withMetadata
  cases entry.1.text? with
  | none => rfl
  | some key =>
      dsimp only
      split
      · rfl
      · cases entry.2.toJson? <;> rfl

theorem foldl_withEntry (entries : List (Yaml.Value × Yaml.Value)) (note : Note) :
    entries.foldl withEntry note =
      { note with metadata := entries.foldl kept note.metadata } := by
  induction entries generalizing note with
  | nil => rfl
  | cons entry rest inductionHypothesis =>
      rw [List.foldl_cons, List.foldl_cons, inductionHypothesis, withEntry_eq]

/-- A note is read from the parts of its text. -/
theorem read_eq (path content : String) (fileTime : Option Time.Instant) (now : Time.Instant) :
    read path content fileTime now =
      ofParts path (Frontmatter.entriesOf content.toList) (Frontmatter.bodyOf content.toList)
        fileTime now := by
  unfold read Frontmatter.entriesOf Frontmatter.bodyOf
  rcases Frontmatter.split content.toList with ⟨header, body⟩
  dsimp only
  generalize (header.map Frontmatter.entries).getD [] = entries
  rw [foldl_withEntry]
  rfl

/-- Of a header, only the values of the reserved keys and the metadata matter to a note. -/
theorem ofParts_congr {first second : List (Yaml.Value × Yaml.Value)}
    (sameValues : ∀ key ∈ reservedKeys, Frontmatter.get? first key = Frontmatter.get? second key)
    (sameMetadata : metadataIn first = metadataIn second) (path : String) (body : List Char)
    (fileTime : Option Time.Instant) (now : Time.Instant) :
    ofParts path first body fileTime now = ofParts path second body fileTime now := by
  have sameTexts : ∀ key ∈ reservedKeys,
      Frontmatter.text? first key = Frontmatter.text? second key := fun key reserved =>
    congrArg (Option.bind · Yaml.Value.scalarText?) (sameValues key reserved)
  have sameDates : ∀ keys ⊆ reservedKeys, dateUnder first now keys = dateUnder second now keys := by
    intro keys areReserved
    induction keys with
    | nil => rfl
    | cons key rest inductionHypothesis =>
        rw [List.cons_subset] at areReserved
        have later := inductionHypothesis areReserved.2
        unfold dateUnder at later ⊢
        rw [List.findSome?_cons, List.findSome?_cons, later, sameTexts key areReserved.1]
  have sameTags : statedTags first = statedTags second := by
    have areReserved : ["tags", "tag"] ⊆ reservedKeys := by decide
    refine List.flatMap_congr fun key member => ?_
    rw [sameValues key (areReserved member)]
  unfold ofParts titleOf
  rw [sameTexts "title" (by decide), sameTags, sameMetadata,
    sameDates ["created", "date"] (by decide), sameDates ["modified", "updated"] (by decide)]

end Note
end Commonplace
