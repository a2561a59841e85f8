import Commonplace.Proofs.Index.Stored
import Commonplace.Proofs.Note.Reading
import Commonplace.Proofs.Text.Collapsing

namespace Commonplace

/-!
# Notes are normalised when they are read

Whatever a text holds, the note that is read from it has tags in lower case without blanks around
them, metadata keys in lower case that do not describe the note itself, a lead on one line and a
trimmed title.  Searches look for these forms only.
-/

namespace Text

theorem trimChars_infix (characters : List Char) : trimChars characters <:+: characters :=
  (dropEndWhile_isPrefix isBlank _).isInfix.trans (List.dropWhile_suffix isBlank).isInfix

/-- Only blank texts are trimmed to nothing. -/
theorem trimChars_eq_nil_iff (characters : List Char) :
    trimChars characters = [] ↔ ∀ character ∈ characters, isBlank character = true := by
  constructor
  · intro empty
    rw [trimChars, dropEndsWhile, dropEndWhile, List.reverse_eq_nil_iff,
      List.dropWhile_eq_nil_iff] at empty
    -- What is left at the start would begin with a character that is not blank.
    have noStart : characters.dropWhile isBlank = [] := by
      cases kept : characters.dropWhile isBlank with
      | nil => rfl
      | cons head tail =>
          have first : head ∈ (characters.dropWhile isBlank).head? := by
            rw [kept]
            rfl
          have solid : isBlank head = false := stays_of_mem_head?_dropWhile first
          rw [kept] at empty
          rw [empty head (List.mem_reverse.mpr List.mem_cons_self)] at solid
          cases solid
    exact List.dropWhile_eq_nil_iff.mp noStart
  · intro blank
    rw [trimChars, dropEndsWhile, List.dropWhile_eq_nil_iff.mpr blank]
    rfl

theorem trim_ne_empty_iff (text : String) : trim text ≠ "" ↔ isBlankText text = false := by
  rw [trim, ne_eq, String.ofList_eq_empty_iff, trimChars_eq_nil_iff, ← List.all_eq_true,
    Bool.not_eq_true]
  rfl

/-- Lower-casing puts no blank at the ends of a text. -/
theorem IsTrimmed.lower {text : String} (trimmed : IsTrimmed text.toList) :
    IsTrimmed (Text.lower text).toList := by
  have isMark : ∀ {character : Char}, isBlank character = true → IsMark character :=
    fun blank => (isSeparator_of_isBlank blank).isMark
  rw [Text.lower, String.toList_ofList]
  constructor
  · intro head first
    by_contra blank
    rw [Bool.not_eq_false] at blank
    have own := head?_of_lowerFrom [] (isMark blank) first
    rw [trimmed.start head own] at blank
    cases blank
  · intro last final
    by_contra blank
    rw [Bool.not_eq_false] at blank
    have own := getLast?_of_lowerFrom [] (isMark blank) final
    rw [trimmed.stop last own] at blank
    cases blank

end Text

namespace Note

/-! ## Tags -/

/-- Whether a text is a tag as notes hold it. -/
structure IsTag (tag : String) : Prop where
  notEmpty : tag ≠ ""
  trimmed : Text.IsTrimmed tag.toList
  lowered : Text.lower tag = tag
  noComma : ',' ∉ tag.toList

/-- A tag in a text has no comma, and something in it is not blank. -/
theorem mem_tagsInText {text tag : String} (member : tag ∈ tagsInText text) :
    ',' ∉ tag.toList ∧ Text.trimChars tag.toList ≠ [] := by
  rcases List.mem_map.mp member with ⟨characters, kept, rfl⟩
  rcases List.mem_filter.mp kept with ⟨isKept, notEmpty⟩
  rcases List.mem_map.mp isKept with ⟨part, isPart, rfl⟩
  rw [String.toList_ofList]
  have suffix : (Text.trimChars part).dropWhile (fun character => character == '#') <:+
      Text.trimChars part := List.dropWhile_suffix _
  generalize (Text.trimChars part).dropWhile (fun character => character == '#') = rest at *
  constructor
  · intro comma
    have inPart := (Text.trimChars_infix part).mem (suffix.mem comma)
    have apart := (Text.mem_of_mem_splitOnP isPart inPart).2
    exact absurd apart (by decide)
  · rcases List.eq_nil_or_concat' rest with rfl | ⟨start, last, rfl⟩
    · cases notEmpty
    · -- The last character stands at the end of the trimmed part too.
      have final : last ∈ (Text.trimChars part).getLast? := by
        rcases suffix with ⟨before, whole⟩
        rw [← whole, ← List.append_assoc]
        exact List.getLast?_concat
      have solid := (Text.isTrimmed_trimChars part).stop last final
      rw [ne_eq, Text.trimChars_eq_nil_iff]
      intro blank
      rw [blank last (List.mem_append_right start (List.mem_singleton_self last))] at solid
      cases solid

mutual

/-- All tags in a value stand in texts. -/
theorem exists_text_of_mem_tagsIn (value : Yaml.Value) {tag : String}
    (member : tag ∈ tagsIn value) : ∃ text, tag ∈ tagsInText text := by
  cases value with
  | sequence items =>
      rw [tagsIn] at member
      exact exists_text_of_mem_tagsInItems items member
  | text | whole | fraction | bool =>
      rw [tagsIn] at member
      exact ⟨_, member⟩
      all_goals nofun
  | null | mapping | tagged =>
      rw [tagsIn] at member
      cases member
      all_goals nofun

theorem exists_text_of_mem_tagsInItems (items : List Yaml.Value) {tag : String}
    (member : tag ∈ tagsInItems items) : ∃ text, tag ∈ tagsInText text := by
  cases items with
  | nil =>
      rw [tagsInItems] at member
      cases member
  | cons item rest =>
      rw [tagsInItems, List.mem_append] at member
      rcases member with here | later
      · exact exists_text_of_mem_tagsIn item here
      · exact exists_text_of_mem_tagsInItems rest later

end

/-- A tag that stands in a header, trimmed and in lower case. -/
theorem isTag_lower_trim {text tag : String} (member : tag ∈ tagsInText text) :
    IsTag (Text.lower (Text.trim tag)) := by
  rcases mem_tagsInText member with ⟨noComma, notBlank⟩
  have trimmed : Text.IsTrimmed (Text.trim tag).toList := by
    rw [Text.trim, String.toList_ofList]
    exact Text.isTrimmed_trimChars _
  have written : (Text.trim tag).toList ≠ [] := by
    rw [Text.trim, String.toList_ofList]
    exact notBlank
  refine ⟨fun empty => ?_, trimmed.lower, Text.lower_lower _, ?_⟩
  · exact Text.lower_ne_empty written (String.toList_eq_nil_iff.mpr empty)
  · intro comma
    have inTrim := Text.mem_of_mem_lower (by decide) comma
    rw [Text.trim, String.toList_ofList] at inTrim
    exact noComma ((Text.trimChars_infix _).mem inTrim)

/-- The tags of a note are the stated ones, trimmed and in lower case, without repetitions. -/
theorem tags_withTags (path : String) (tags : List String) :
    ((ofPath path).withTags tags).tags = Index.storedTags (tags.map Text.trim) := by
  rw [withTags, Index.storedTags, List.foldl_map]
  rfl

theorem isTag_of_mem_tags {path : String} {entries : List (Yaml.Value × Yaml.Value)} {tag : String}
    (member : tag ∈ ((ofPath path).withTags (statedTags entries)).tags) : IsTag tag := by
  rw [tags_withTags, Index.mem_storedTags] at member
  rcases member with ⟨_, inTrimmed, rfl⟩
  rcases List.mem_map.mp inTrimmed with ⟨stated, inStated, rfl⟩
  rcases List.mem_flatMap.mp inStated with ⟨key, _, inValue⟩
  cases found : Frontmatter.get? entries key with
  | none =>
      rw [found] at inValue
      cases inValue
  | some value =>
      rw [found] at inValue
      rcases exists_text_of_mem_tagsIn value inValue with ⟨text, inText⟩
      exact isTag_lower_trim inText

/-! ## Metadata -/

theorem mem_setEntry {value : Type} {key : String} {entry : value}
    {entries : List (String × value)} {field : String × value}
    (member : field ∈ setEntry key entry entries) : field = (key, entry) ∨ field ∈ entries := by
  induction entries with
  | nil => exact .inl (List.mem_singleton.mp member)
  | cons head tail inductionHypothesis =>
      rw [setEntry] at member
      split at member
      · exact List.mem_cons.mp member
      · split at member
        · rcases List.mem_cons.mp member with new | later
          · exact .inl new
          · exact .inr (List.mem_cons_of_mem head later)
        · rcases List.mem_cons.mp member with rfl | later
          · exact .inr List.mem_cons_self
          · exact (inductionHypothesis later).imp id (List.mem_cons_of_mem head)

/-- Whether a text is a key under which metadata is kept. -/
def IsMetadataKey (key : String) : Prop :=
  Text.lower key = key ∧ key ∉ reservedKeys

/-- Keeping an entry keeps the form of the keys. -/
theorem isMetadataKey_kept {metadata : List (String × Json)} (entry : Yaml.Value × Yaml.Value)
    (areKeys : ∀ field ∈ metadata, IsMetadataKey field.1) :
    ∀ field ∈ kept metadata entry, IsMetadataKey field.1 := by
  unfold kept
  cases entry.1.text? with
  | none => exact areKeys
  | some key =>
      dsimp only
      split
      · exact areKeys
      · rename_i notReserved
        cases entry.2.toJson? with
        | none => exact areKeys
        | some value =>
            intro field member
            rcases mem_setEntry member with rfl | known
            · exact ⟨Text.lower_lower key, fun reserved =>
                notReserved (List.contains_iff_mem.mpr reserved)⟩
            · exact areKeys field known

theorem isMetadataKey_of_mem_metadataIn (entries : List (Yaml.Value × Yaml.Value)) :
    ∀ field ∈ metadataIn entries, IsMetadataKey field.1 := by
  have behind : ∀ metadata : List (String × Json), (∀ field ∈ metadata, IsMetadataKey field.1) →
      ∀ field ∈ entries.foldl kept metadata, IsMetadataKey field.1 := by
    induction entries with
    | nil => exact fun _ areKeys => areKeys
    | cons entry rest inductionHypothesis =>
        intro metadata areKeys
        exact inductionHypothesis _ (isMetadataKey_kept entry areKeys)
  exact behind [] fun _ => nofun

/-! ## Titles -/

theorem firstHeading_trimmed {body heading : List Char} (found : firstHeading body = some heading) :
    Text.IsTrimmed heading ∧ heading ≠ [] := by
  have notEmpty := List.find?_some found
  rcases List.mem_filterMap.mp (List.mem_of_find?_eq_some found) with ⟨line, _, isHeading⟩
  unfold headingOf at isHeading
  split at isHeading
  · rcases isHeading with ⟨⟩
    exact ⟨Text.isTrimmed_trimChars _, by simpa using notEmpty⟩
  · cases isHeading

/-- A note has a title when its file has a name. -/
theorem titleOf_ne_empty {path : String} (named : Text.isBlankText (fileStem path) = false)
    (entries : List (Yaml.Value × Yaml.Value)) (body : List Char) :
    titleOf entries body path ≠ "" := by
  rw [titleOf, Text.trim_ne_empty_iff]
  cases stated : (Frontmatter.text? entries "title").filter fun text =>
      !Text.isBlankText text with
  | some text =>
      have written := (Option.filter_eq_some_iff.mp stated).2
      exact Bool.not_eq_true' _ ▸ written
  | none =>
      rw [Option.none_or]
      cases found : firstHeading body with
      | none => exact named
      | some heading =>
          rcases firstHeading_trimmed found with ⟨trimmed, notEmpty⟩
          have whole : Text.trim (String.ofList heading) = String.ofList heading := by
            apply Text.trim_of_isTrimmed
            rw [String.toList_ofList]
            exact trimmed
          rw [Option.map_some, Option.getD_some, ← Text.trim_ne_empty_iff, whole]
          exact fun empty => notEmpty (String.ofList_eq_empty_iff.mp empty)

/-! ## Whole notes -/

/-- What holds of a note that was read from a text. -/
structure IsNormalised (content : String) (note : Note) : Prop where
  body : note.body.toList <:+ content.toList
  tags : ∀ tag ∈ note.tags, IsTag tag
  keys : ∀ field ∈ note.metadata, IsMetadataKey field.1
  lead : Text.IsCollapsed note.lead.toList
  oneLine : '\n' ∉ note.lead.toList ∧ '\r' ∉ note.lead.toList
  title : Text.IsTrimmed note.title.toList
  titled : Text.isBlankText (fileStem note.path) = false → note.title ≠ ""

theorem isNormalised_read (path content : String) (fileTime : Option Time.Instant)
    (now : Time.Instant) : IsNormalised content (read path content fileTime now) := by
  have suffix := (Frontmatter.split_parts content.toList).2
  rw [read_eq]
  generalize Frontmatter.entriesOf content.toList = entries
  generalize Frontmatter.bodyOf content.toList = text at suffix ⊢
  have lead : Text.IsCollapsed (ofParts path entries text fileTime now).lead.toList := by
    rw [ofParts, String.toList_ofList]
    exact Text.isCollapsed_collapseChars _
  have onlySpaces : ∀ character, Text.isBlank character = true → character ≠ ' ' →
      character ∉ (ofParts path entries text fileTime now).lead.toList :=
    fun character blank notSpace member => notSpace (lead.spaces character member blank)
  refine ⟨?isSuffix, fun tag => isTag_of_mem_tags, isMetadataKey_of_mem_metadataIn entries, lead,
    ⟨onlySpaces '\n' (by decide) (by decide), onlySpaces '\r' (by decide) (by decide)⟩, ?isTrimmed,
    fun named => titleOf_ne_empty named entries text⟩
  case isSuffix =>
    rw [ofParts, String.toList_ofList]
    exact suffix
  case isTrimmed =>
    rw [ofParts, titleOf, Text.trim, String.toList_ofList]
    exact Text.isTrimmed_trimChars _

/-- The tags of a note that was read are as an index keeps them. -/
theorem storedTags_read (path content : String) (fileTime : Option Time.Instant)
    (now : Time.Instant) :
    Index.storedTags (read path content fileTime now).tags =
      (read path content fileTime now).tags := by
  rw [read_eq, ofParts, tags_withTags, Index.storedTags_storedTags]

end Note
end Commonplace
