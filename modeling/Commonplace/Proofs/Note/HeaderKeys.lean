import Commonplace.Proofs.Note.Reading
import Commonplace.Proofs.Text.Recasing

namespace Commonplace

/-!
# The letter case of header keys

The keys under which a note is described are looked up as they are written, but told from other
keys by their small letters.  So an entry under such a key with a capital in it is lost: it is
neither looked up nor kept as metadata.  The case of all other keys makes no difference.
-/

namespace Yaml

/-- Only a text is the same as a text. -/
theorem same_text_iff {value : Value} {text : String} :
    value.same (.text text) = true ↔ value = .text text := by
  constructor
  · intro same
    cases value with
    | text other => rw [beq_iff_eq.mp same]
    | null | bool | whole | fraction | sequence | mapping | tagged => cases same
  · rintro rfl
    exact beq_self_eq_true text

theorem eq_texts_of_sameItems {values : List Value} {texts : List String}
    (same : Value.sameItems values (texts.map .text) = true) : values = texts.map .text := by
  induction values generalizing texts with
  | nil =>
      cases texts with
      | nil => rfl
      | cons => cases same
  | cons value rest inductionHypothesis =>
      cases texts with
      | nil => cases same
      | cons text others =>
          rcases Bool.and_eq_true_iff.mp same with ⟨first, later⟩
          rw [same_text_iff.mp first, inductionHypothesis later]
          rfl

/-- Entries of plain texts are told by their keys and values alone. -/
theorem eq_texts_of_entries {entries : List (Value × Value)} {texts : List (String × String)}
    (keys : Value.sameItems (entries.map Prod.fst) ((texts.map Prod.fst).map .text) = true)
    (values : Value.sameItems (entries.map Prod.snd) ((texts.map Prod.snd).map .text) = true) :
    entries = texts.map (Prod.map .text .text) := by
  have own := List.zip_of_prod (rfl : texts.map Prod.fst = _) (rfl : texts.map Prod.snd = _)
  rw [List.zip_of_prod (eq_texts_of_sameItems keys) (eq_texts_of_sameItems values), List.zip_map,
    ← own]

end Yaml

namespace Note

variable {first second : Yaml.Value × Yaml.Value}

/-- Whether two entries of a header differ at most in the letter case of their keys. -/
structure Recased (first second : Yaml.Value × Yaml.Value) : Prop where
  value : first.2 = second.2
  key : first.1 = second.1 ∨ ∃ text other, first.1 = .text text ∧ second.1 = .text other ∧
    Text.SameLetters text.toList other.toList

/-- Whether an entry is under a reserved key that is not written in small letters. -/
def isLost (entry : Yaml.Value × Yaml.Value) : Bool :=
  match entry.1.text? with
  | none => false
  | some key =>
      reservedKeys.contains (Text.lower key) &&
        !reservedKeys.any fun reserved => entry.1.same (.text reserved)

/-! ## Entries that are lost -/

/-- An entry that is found under a reserved key is not lost. -/
theorem isLost_of_same {entry : Yaml.Value × Yaml.Value} {key : String}
    (reserved : key ∈ reservedKeys) (same : entry.1.same (.text key) = true) :
    isLost entry = false := by
  have found : (reservedKeys.any fun other => entry.1.same (.text other)) = true :=
    List.any_eq_true.mpr ⟨key, reserved, same⟩
  unfold isLost
  rw [found]
  cases entry.1.text? with
  | none => rfl
  | some text => exact Bool.and_false _

theorem kept_of_isLost {entry : Yaml.Value × Yaml.Value} (lost : isLost entry = true)
    (metadata : List (String × Json)) : kept metadata entry = metadata := by
  unfold isLost at lost
  unfold kept
  cases found : entry.1.text? with
  | none => rfl
  | some key =>
      rw [found] at lost
      exact if_pos (Bool.and_eq_true_iff.mp lost).1

/-- A note is read as if the lost entries were not there. -/
theorem ofParts_filter (path : String) (entries : List (Yaml.Value × Yaml.Value))
    (body : List Char) (fileTime : Option Time.Instant) (now : Time.Instant) :
    ofParts path (entries.filter fun entry => !isLost entry) body fileTime now =
      ofParts path entries body fileTime now := by
  apply ofParts_congr
  · intro key reserved
    have sameTest : (fun entry : Yaml.Value × Yaml.Value =>
        decide ((!isLost entry) = true ∧ entry.1.same (.text key) = true)) =
          fun entry => entry.1.same (.text key) := by
      funext entry
      rw [Bool.decide_and, Bool.decide_eq_true, Bool.decide_eq_true]
      cases same : entry.1.same (.text key) with
      | false => exact Bool.and_false _
      | true => rw [isLost_of_same reserved same]; rfl
    rw [Frontmatter.get?, Frontmatter.get?, List.find?_filter, sameTest]
  · rw [metadataIn, metadataIn, List.foldl_filter]
    congr 1
    funext metadata entry
    cases lost : isLost entry with
    | false => rfl
    | true => exact (kept_of_isLost lost metadata).symm

/-! ## Keys in another case -/

theorem lower_reserved : ∀ key ∈ reservedKeys, Text.lower key = key := by
  decide +kernel

theorem Recased.kept_eq (recased : Recased first second) (metadata : List (String × Json)) :
    kept metadata first = kept metadata second := by
  rcases recased.key with same | ⟨text, other, isText, isOther, letters⟩
  · rw [Prod.ext same recased.value]
  · unfold kept
    rw [isText, isOther, Yaml.Value.text?, Yaml.Value.text?, recased.value]
    dsimp only
    rw [Text.lower_congr letters]

/-- An entry under a text is lost when the text turns into a reserved key in small letters. -/
theorem isLost_text_eq_false {key : String} {value : Yaml.Value} :
    isLost (.text key, value) = false ↔ (Text.lower key ∈ reservedKeys → key ∈ reservedKeys) := by
  have found : (reservedKeys.any fun reserved =>
      (Yaml.Value.text key).same (.text reserved)) = reservedKeys.contains key := by
    rw [List.contains_eq_any_beq]
    rfl
  unfold isLost
  rw [Yaml.Value.text?]
  dsimp only
  rw [found, Bool.and_eq_false_iff, Bool.not_eq_false', ← Bool.not_eq_true, List.contains_iff_mem,
    List.contains_iff_mem, imp_iff_not_or]

theorem Recased.symm (recased : Recased first second) : Recased second first := by
  refine ⟨recased.value.symm, ?_⟩
  rcases recased.key with same | ⟨text, other, isText, isOther, letters⟩
  · exact .inl same.symm
  · exact .inr ⟨other, text, isOther, isText, letters.symm⟩

/-- A reserved key that changes its case is lost. -/
theorem Recased.key_eq (recased : Recased first second) (stays : isLost second = false)
    {key : String} (reserved : key ∈ reservedKeys) (same : first.1 = .text key) :
    second.1 = .text key := by
  rcases recased.key with unchanged | ⟨text, other, isText, isOther, letters⟩
  · rw [← unchanged, same]
  · have isKey : text = key := Yaml.Value.text.inj (isText.symm.trans same)
    have lowered : Text.lower other = key := by
      rw [← Text.lower_congr letters, isKey, lower_reserved key reserved]
    have shape : second = (.text other, second.2) := Prod.ext isOther rfl
    rw [shape, isLost_text_eq_false] at stays
    have isReserved := stays (lowered ▸ reserved)
    rw [isOther, ← lowered, lower_reserved other isReserved]

theorem Recased.same_key (recased : Recased first second) (sameFate : isLost first = isLost second)
    {key : String} (reserved : key ∈ reservedKeys) :
    first.1.same (.text key) = second.1.same (.text key) := by
  rw [Bool.eq_iff_iff]
  constructor
  · intro found
    have stays := isLost_of_same reserved found
    rw [sameFate] at stays
    exact Yaml.same_text_iff.mpr
      (recased.key_eq stays reserved (Yaml.same_text_iff.mp found))
  · intro found
    have stays := isLost_of_same reserved found
    rw [← sameFate] at stays
    exact Yaml.same_text_iff.mpr
      (recased.symm.key_eq stays reserved (Yaml.same_text_iff.mp found))

section Headers

variable {firsts seconds : List (Yaml.Value × Yaml.Value)}

theorem get?_recased (recased : List.Forall₂ Recased firsts seconds)
    (sameFate : firsts.map isLost = seconds.map isLost) {key : String}
    (reserved : key ∈ reservedKeys) :
    Frontmatter.get? firsts key = Frontmatter.get? seconds key := by
  have sameFound : (firsts.find? fun entry => entry.1.same (.text key)).map Prod.snd =
      (seconds.find? fun entry => entry.1.same (.text key)).map Prod.snd := by
    induction recased with
    | nil => rfl
    | cons here _ inductionHypothesis =>
        rcases List.cons.inj sameFate with ⟨first, later⟩
        rw [List.find?_cons, List.find?_cons, here.same_key first reserved]
        split
        · exact congrArg some here.value
        · exact inductionHypothesis later
  rw [Frontmatter.get?, Frontmatter.get?]
  exact congrArg (Option.filter fun value => !value.isNull) sameFound

theorem metadataIn_recased (recased : List.Forall₂ Recased firsts seconds) :
    metadataIn firsts = metadataIn seconds := by
  have behind : ∀ metadata, firsts.foldl kept metadata = seconds.foldl kept metadata := by
    induction recased with
    | nil => exact fun _ => rfl
    | cons here _ inductionHypothesis =>
        intro metadata
        rw [List.foldl_cons, List.foldl_cons, here.kept_eq, inductionHypothesis]
  exact behind []

/-- The entries of a header whose counterparts in another header are not lost. -/
def remaining (entries others : List (Yaml.Value × Yaml.Value)) :
    List (Yaml.Value × Yaml.Value) :=
  ((entries.zip others).filter fun pair => !isLost pair.2).map Prod.fst

theorem remaining_recased (recased : List.Forall₂ Recased firsts seconds)
    (whole : ∀ entry ∈ firsts, isLost entry = false) :
    List.Forall₂ Recased (remaining firsts seconds)
        (seconds.filter fun entry => !isLost entry) ∧
      (remaining firsts seconds).map isLost =
        (seconds.filter fun entry => !isLost entry).map isLost := by
  induction recased with
  | nil => exact ⟨.nil, rfl⟩
  | @cons first second restFirst restSecond here _ inductionHypothesis =>
      have later := inductionHypothesis fun entry member =>
        whole entry (List.mem_cons_of_mem first member)
      cases lost : isLost second with
      | true =>
          have dropped : remaining (first :: restFirst) (second :: restSecond) =
              remaining restFirst restSecond := by
            rw [remaining, List.zip_cons_cons, List.filter_cons_of_neg (by simp [lost])]
            rfl
          rw [dropped, List.filter_cons_of_neg (by simp [lost])]
          exact later
      | false =>
          have stays : remaining (first :: restFirst) (second :: restSecond) =
              first :: remaining restFirst restSecond := by
            rw [remaining, List.zip_cons_cons, List.filter_cons_of_pos (by simp [lost])]
            rfl
          rw [stays, List.filter_cons_of_pos (by simp [lost]), List.map_cons, List.map_cons,
            whole first List.mem_cons_self, lost, later.2]
          exact ⟨.cons here later.1, rfl⟩

end Headers

theorem ofParts_recased {firsts seconds : List (Yaml.Value × Yaml.Value)}
    (recased : List.Forall₂ Recased firsts seconds)
    (sameFate : firsts.map isLost = seconds.map isLost) (path : String) (body : List Char)
    (fileTime : Option Time.Instant) (now : Time.Instant) :
    ofParts path firsts body fileTime now = ofParts path seconds body fileTime now :=
  ofParts_congr (fun _ reserved => get?_recased recased sameFate reserved)
    (metadataIn_recased recased) path body fileTime now

/-- A note whose header differs from another only in the letter case of keys is read as if its lost
entries were not there.  So both notes are the same when the same entries are lost.  When the other
has lost none, only the entries that are lost now make a difference. -/
theorem header_keys_recased {first second : String}
    (sameBody : Frontmatter.bodyOf first.toList = Frontmatter.bodyOf second.toList)
    (recased : List.Forall₂ Recased (Frontmatter.entriesOf first.toList)
      (Frontmatter.entriesOf second.toList))
    (path : String) (fileTime : Option Time.Instant) (now : Time.Instant) :
    let firsts := Frontmatter.entriesOf first.toList
    let seconds := Frontmatter.entriesOf second.toList
    let body := Frontmatter.bodyOf first.toList
    read path second fileTime now =
        ofParts path (seconds.filter fun entry => !isLost entry) body fileTime now ∧
      (firsts.map isLost = seconds.map isLost →
        read path second fileTime now = read path first fileTime now) ∧
      ((∀ entry ∈ firsts, isLost entry = false) →
        read path second fileTime now =
          ofParts path (remaining firsts seconds) body fileTime now) := by
  intro firsts seconds body
  have without : read path second fileTime now =
      ofParts path (seconds.filter fun entry => !isLost entry) body fileTime now := by
    rw [read_eq, ofParts_filter, ← sameBody]
  refine ⟨without, fun sameFate => ?_, fun whole => ?_⟩
  · rw [read_eq, read_eq, ← sameBody]
    exact (ofParts_recased recased sameFate path body fileTime now).symm
  · have parts := remaining_recased recased whole
    rw [without]
    exact (ofParts_recased parts.1 parts.2 path body fileTime now).symm

/-- A title and a status under keys with capitals.  Only the status is read. -/
theorem capital_status_is_read :
    let first := "---\ntitle: Plan\nstatus: open\n---\nText\n"
    let second := "---\nTitle: Plan\nStatus: open\n---\nText\n"
    Frontmatter.bodyOf first.toList = Frontmatter.bodyOf second.toList ∧
      List.Forall₂ Recased (Frontmatter.entriesOf first.toList)
        (Frontmatter.entriesOf second.toList) ∧
      read "a.md" second none default =
        ofParts "a.md" [(.text "status", .text "open")] "Text\n".toList none default := by
  intro first second
  have sameBody : Frontmatter.bodyOf first.toList = Frontmatter.bodyOf second.toList := by
    decide +kernel
  have body : Frontmatter.bodyOf first.toList = "Text\n".toList := by decide +kernel
  have firsts : Frontmatter.entriesOf first.toList = [("title", "Plan"), ("status", "open")].map
      (Prod.map .text .text) := Yaml.eq_texts_of_entries (by decide +kernel) (by decide +kernel)
  have seconds : Frontmatter.entriesOf second.toList = [("Title", "Plan"), ("Status", "open")].map
      (Prod.map .text .text) := Yaml.eq_texts_of_entries (by decide +kernel) (by decide +kernel)
  have recased : List.Forall₂ Recased (Frontmatter.entriesOf first.toList)
      (Frontmatter.entriesOf second.toList) := by
    rw [firsts, seconds]
    refine .cons ⟨rfl, .inr ⟨_, _, rfl, rfl, ?_⟩⟩ (.cons ⟨rfl, .inr ⟨_, _, rfl, rfl, ?_⟩⟩ .nil)
    · decide +kernel
    · decide +kernel
  have result := (header_keys_recased sameBody recased "a.md" none default).2.2
  rw [firsts, seconds, body] at result
  refine ⟨sameBody, recased, (result ?_).trans ?_⟩
  · have stay : ∀ texts ∈ [("title", "Plan"), ("status", "open")],
        isLost (Prod.map .text .text texts) = false := by decide +kernel
    exact List.forall_mem_map.mpr stay
  · have lost : isLost (.text "Title", .text "Plan") = true := by decide +kernel
    have stays : isLost (.text "Status", .text "open") = false := by decide +kernel
    simp [remaining, lost, stays]

/-- A title and tags under keys with capitals are neither looked up nor kept. -/
theorem capital_title_is_lost :
    let small := read "a.md" "---\ntitle: Plan\ntags: work\n---\nText\n" none default
    let capital := read "a.md" "---\nTitle: Plan\nTags: work\n---\nText\n" none default
    (small.title, small.tags, small.metadata.length) = ("Plan", ["work"], 0) ∧
      (capital.title, capital.tags, capital.metadata.length) = ("a", [], 0) := by
  decide +kernel

end Note
end Commonplace
