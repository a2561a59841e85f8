import Commonplace.Proofs.Index.Selection
import Commonplace.Proofs.Note.Presence
import Commonplace.Proofs.Query.ReadingBack

namespace Commonplace

/-!
# Searches for a field that has a value

A query that asks whether a note has a field, or lacks it, is answered by the note and by an index
in the same way: by whether there is a value in the field.  The name in the query may be an alias,
may stand behind a mark of metadata, and is taken without regard to its case.  Only a field whose
presence key is too long for an index is not found there.
-/

/-! ## Names -/

/-- A name in lower case stands for the same field. -/
theorem Field.ofName_lower {name : String} (trimmed : Text.IsTrimmed name.toList) :
    ofName (Text.lower name) = ofName name := by
  rw [ofName, ofName, Text.trim_of_isTrimmed trimmed, Text.trim_of_isTrimmed trimmed.lower,
    Text.lower_lower]

namespace QueryLanguage

/-- The word that asks for a field, or for its absence. -/
def presenceWord (negated : Bool) : String :=
  if negated then "missing" else "has"

/-- Whether a text is a name that may stand behind a word that asks for presence. -/
structure IsFieldName (name : String) : Prop where
  notEmpty : name.toList ≠ []
  solid : IsSolid ['"', ':'] name.toList

theorem IsFieldName.isTrimmed {name : String} (isName : IsFieldName name) :
    Text.IsTrimmed name.toList :=
  .of_forall fun character member => (isName.solid character member).1

/-- A name behind a word that asks for presence is read as the question for it. -/
theorem parse_presence (negated : Bool) {name : String} (isName : IsFieldName name) :
    parse (presenceWord negated ++ ":" ++ name) =
      .ok ⟨[.exists (Text.lower name) negated], presenceWord negated ++ ":" ++ name⟩ := by
  have asks : presenceWord negated ∈ presenceWords := by
    cases negated <;> decide
  have low : Text.lower (presenceWord negated) = presenceWord negated := by
    cases negated <;> decide +kernel
  have isNegated : (presenceWord negated == "missing") = negated := by
    cases negated <;> decide
  have listed := List.mem_append_right fieldNames asks
  have whole : (presenceWord negated ++ ":" ++ name).toList =
      (presenceWord negated).toList ++ ':' :: name.toList := by
    rw [String.toList_append, String.toList_append, List.append_assoc]
    rfl
  have begins := startsPlain_of_name listed (':' :: name.toList)
  rw [← whole] at begins
  have atom : ReadsAtom (presenceWord negated ++ ":" ++ name).toList
      (.exists (Text.lower name) negated) [] := by
    have isKeyword : Text.lower (String.ofList (presenceWord negated).toList) ∈ presenceWords := by
      rw [String.ofList_toList, low]
      exact asks
    have reads := ReadsAtom.presence (isSolid_of_name listed) isKeyword isName.notEmpty
      (.alone isName.solid)
    rw [String.ofList_toList, String.ofList_toList, low, isNegated, List.append_nil] at reads
    rw [whole]
    exact reads
  have spells : Spells (presenceWord negated ++ ":" ++ name).toList
      (marksOf [[.exists (Text.lower name) negated]]) :=
    .expr begins.2 (.plain begins.1 atom) .done
  have proper : AreProper [[Expr.exists (Text.lower name) negated]] :=
    .inr ⟨List.cons_ne_nil _ _, List.forall_mem_singleton.mpr (List.cons_ne_nil _ _)⟩
  exact (ReadsChains.mk spells proper).parse.1

end QueryLanguage

/-! ## Answers -/

namespace Note

theorem satisfiesPresence_iff {note : Note} (lowKeys : note.HasLowKeys) (name : String)
    (negated : Bool) :
    note.satisfiesPresence name negated = true ↔
      (negated = false ↔ note.HasValue (Field.ofName name)) := by
  rw [satisfiesPresence, ← mem_presentFields_iff lowKeys, ← List.contains_iff_mem, bne_iff_ne]
  cases note.presentFields.contains (Field.ofName name).presenceKey <;> cases negated <;> simp

end Note

namespace Index

/-- Whether a query tells if there is a value in a field of a note, or, when negated, if there is
none: the note answers so, and so does every index that holds it, unless the presence key of the
field is too long. -/
structure TellsPresence [PatternEngine] (note : Note) (now : Time.Instant) (query : Query)
    (field : Field) (negated : Bool) : Prop where
  answers : ∃ answer, note.satisfiesQuery now query = .ok answer ∧
    (answer = true ↔ (negated = false ↔ note.HasValue field))
  selects : ∃ found, queryCriterion now query = .ok found ∧
    (field.presenceKey.utf8ByteSize ≤ largestValue →
      ∀ contents : Contents, note ∈ contents.notes →
        (note ∈ selected contents.notes found ↔ (negated = false ↔ note.HasValue field)))

/-- A presence key that is not too long is found where it is listed. -/
theorem selects_presence_of_short {note : Note} {name : String}
    (short : (Field.ofName name).presenceKey.utf8ByteSize ≤ largestValue) (negated : Bool) :
    (presenceCriterion name negated).selects note = note.satisfiesPresence name negated := by
  have present : (Criterion.term .presence (Field.ofName name).presenceKey).selects note =
      note.presentFields.contains (Field.ofName name).presenceKey := by
    rw [Bool.eq_iff_iff, Criterion.selects, List.contains_iff_mem, List.contains_iff_mem,
      ValueSlot.terms, List.mem_filter, decide_eq_true_eq]
    exact and_iff_left short
  rw [presenceCriterion, Note.satisfiesPresence]
  cases negated with
  | true => rw [if_pos rfl, Criterion.selects_negation, present, Bool.bne_true]
  | false => rw [if_neg Bool.false_ne_true, present, Bool.bne_false]

section Engine

variable [PatternEngine]

theorem queryCriterion_exists (now : Time.Instant) (name : String) (negated : Bool) (raw : String) :
    queryCriterion now ⟨[.exists name negated], raw⟩ = .ok (presenceCriterion name negated) :=
  rfl

theorem tellsPresence_exists {note : Note} (lowKeys : note.HasLowKeys) (now : Time.Instant)
    (name : String) (negated : Bool) (raw : String) :
    TellsPresence note now ⟨[.exists name negated], raw⟩ (Field.ofName name) negated where
  answers := by
    refine ⟨note.satisfiesPresence name negated, ?_, Note.satisfiesPresence_iff lowKeys name negated⟩
    rw [Note.satisfiesQuery, Note.satisfiesAll, Note.satisfies]
    cases note.satisfiesPresence name negated <;> rfl
  selects := by
    refine ⟨_, queryCriterion_exists now name negated raw, fun short contents listed => ?_⟩
    rw [mem_selected, and_iff_right listed, selects_presence_of_short short]
    exact Note.satisfiesPresence_iff lowKeys name negated

/-- The fields that a note lists as present are those that have values, and these are the ones in
which there is a value.  Notes and indexes answer the question for a field accordingly, whether it
is put as an expression or read from a text, except that an index does not find a field whose
presence key is too long.  The metadata keys are distinct and in lower case, as in every note that
is read. -/
theorem presence_agrees_with_values :
    (∀ path content fileTime now, (Note.read path content fileTime now).HasLowKeys) ∧
      ∀ note : Note, note.HasLowKeys → ∀ (name : String) (now : Time.Instant),
        ((Field.ofName name).presenceKey ∈ note.presentFields ↔
          note.values (Field.ofName name) ≠ []) ∧
        (note.values (Field.ofName name) ≠ [] ↔ note.HasValue (Field.ofName name)) ∧
        ∀ negated : Bool,
          (∀ raw, TellsPresence note now ⟨[.exists name negated], raw⟩
            (Field.ofName name) negated) ∧
          (QueryLanguage.IsFieldName name →
            ∃ query, QueryLanguage.parse (QueryLanguage.presenceWord negated ++ ":" ++ name) =
                .ok query ∧
              TellsPresence note now query (Field.ofName name) negated) := by
  refine ⟨Note.hasLowKeys_read, fun note lowKeys name now => ⟨?_, ?_, fun negated => ⟨?_, ?_⟩⟩⟩
  · rw [Note.mem_presentFields_iff lowKeys, Note.values_ne_nil_iff lowKeys]
  · exact Note.values_ne_nil_iff lowKeys _
  · exact tellsPresence_exists lowKeys now name negated
  · intro isName
    refine ⟨_, QueryLanguage.parse_presence negated isName, ?_⟩
    rw [← Field.ofName_lower isName.isTrimmed]
    exact tellsPresence_exists lowKeys now _ negated _

end Engine

/-- A note with a value deep in lists, and with a list that holds nothing but nulls, blanks and
objects. -/
def nestedNote : Note :=
  { Note.ofPath "a.md" with
    metadata :=
      [("deep", .list [.null, .list [.text " ", .list [.bool false]]]),
        ("hollow", .list [.text "  ", .object [("inside", .text "x")], .list [.null]])] }

theorem nestedNote_hasLowKeys : nestedNote.HasLowKeys where
  apart := by
    decide
  low := by
    decide +kernel

open scoped PatternEngine

/-- The deep value is found under a name with a mark and capitals, and the hollow list counts as
missing. -/
theorem deep_value_is_present :
    nestedNote.HasLowKeys ∧
      (∃ query, QueryLanguage.parse "has:META.Deep" = .ok query ∧
        TellsPresence nestedNote ⟨0, 0⟩ query (.metadata "deep") false) ∧
      nestedNote.HasValue (.metadata "deep") ∧
      (∃ query, QueryLanguage.parse "missing:hollow" = .ok query ∧
        TellsPresence nestedNote ⟨0, 0⟩ query (.metadata "hollow") true) ∧
      ¬nestedNote.HasValue (.metadata "hollow") := by
  have deep := presence_agrees_with_values.2 nestedNote nestedNote_hasLowKeys "META.Deep" ⟨0, 0⟩
  have hollow := presence_agrees_with_values.2 nestedNote nestedNote_hasLowKeys "hollow" ⟨0, 0⟩
  have deepField : Field.ofName "META.Deep" = .metadata "deep" := by decide +kernel
  have hollowField : Field.ofName "hollow" = .metadata "hollow" := by decide +kernel
  rw [deepField] at deep
  rw [hollowField] at hollow
  refine ⟨nestedNote_hasLowKeys, (deep.2.2 false).2 ⟨by decide, by decide⟩, deep.2.1.mp ?_,
    (hollow.2.2 true).2 ⟨by decide, by decide⟩, hollow.2.1.not.mp ?_⟩
  · decide +kernel
  · decide +kernel

/-- Whether an index misses a note that answers for itself that there is a value in a field. -/
structure IsMissedByPresence [PatternEngine] (note : Note) (name : String) : Prop where
  listed : (Field.ofName name).presenceKey ∈ note.presentFields
  valued : note.values (Field.ofName name) ≠ []
  answered : note.satisfiesQuery ⟨0, 0⟩ (.ofExpressions [.exists name false]) = .ok true
  missed : ∃ found, queryCriterion ⟨0, 0⟩ (.ofExpressions [.exists name false]) = .ok found ∧
    selected [note] found = []

/-- An index misses every value in a field whose presence key is too long. -/
theorem isMissedByPresence_of_long [PatternEngine] {note : Note} (lowKeys : note.HasLowKeys)
    {name : String} (hasValue : note.HasValue (Field.ofName name))
    (long : largestValue < (Field.ofName name).presenceKey.utf8ByteSize) :
    IsMissedByPresence note name where
  listed := (Note.mem_presentFields_iff lowKeys _).mpr hasValue
  valued := (Note.values_ne_nil_iff lowKeys _).mpr hasValue
  answered := by
    have satisfied : note.satisfiesPresence name false = true :=
      (Note.satisfiesPresence_iff lowKeys name false).mpr (iff_of_true rfl hasValue)
    rw [Query.ofExpressions, Note.satisfiesQuery, Note.satisfiesAll, Note.satisfies, satisfied]
    rfl
  missed := by
    refine ⟨_, queryCriterion_exists ⟨0, 0⟩ name false "", ?_⟩
    rw [selected, List.filter_eq_nil_iff]
    intro other _
    rw [presenceCriterion, if_neg Bool.false_ne_true, selects_term_of_long long]
    exact Bool.false_ne_true

/-- A note with a metadata key that is too long for an index. -/
def longKeyed : Note :=
  { Note.ofPath "a.md" with metadata := [(longTag, .text "x")] }

theorem longKeyed_hasLowKeys : longKeyed.HasLowKeys where
  apart := List.nodup_singleton _
  low := by
    intro entry member
    rw [List.mem_singleton.mp member]
    exact lower_longTag

theorem ofName_longTag : Field.ofName longTag = .metadata longTag := by
  have written : longTag.toList = 'a' :: List.replicate largestValue 'a' := by
    rw [longTag, String.toList_ofList, List.replicate_succ]
  -- Every other name that is looked for begins with another letter.
  have differs : ∀ name : String, name.toList.head? ≠ some 'a' → (longTag == name) = false := by
    intro name otherStart
    apply beq_eq_false_iff_ne.mpr
    rintro rfl
    rw [written] at otherStart
    exact otherStart rfl
  have noMark : ∀ mark ∈ Field.metadataMarks, Field.withoutMark? mark longTag = none := by
    intro mark member
    rw [Field.withoutMark?, written]
    simp only [Field.metadataMarks, List.mem_cons, List.not_mem_nil, or_false] at member
    rcases member with rfl | rfl | rfl <;> rfl
  have key : Field.metadataKey longTag = longTag := by
    rw [Field.metadataKey, List.findSome?_eq_none_iff.mpr noMark]
    rfl
  have noCore : Field.coreName? longTag = none := by
    simp (disch := decide) only [Field.coreName?, differs, Bool.or_self, Bool.false_eq_true,
      if_false]
  rw [Field.ofName, Text.trim_of_isTrimmed isTrimmed_longTag, lower_longTag, noCore]
  simp (disch := decide) only [key, differs, Bool.or_self, Bool.false_eq_true, if_false]

/-- A value under a key of more than 65530 bytes is there for the note and not for the index. -/
theorem long_key_is_not_found : longKeyed.HasLowKeys ∧ IsMissedByPresence longKeyed longTag := by
  refine ⟨longKeyed_hasLowKeys, isMissedByPresence_of_long longKeyed_hasLowKeys ?_ ?_⟩
  · have blank : Text.isBlankText "x" = false := by decide
    rw [ofName_longTag]
    exact .metadata (List.mem_singleton_self _) (.text blank)
  · rw [ofName_longTag, Field.presenceKey, String.utf8ByteSize_append, longTag,
      utf8ByteSize_replicate]
    omega

end Index

end Commonplace
