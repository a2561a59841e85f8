import Commonplace.Proofs.Index.Translation
import Commonplace.Search.Retrieval

namespace Commonplace

/-!
# The modes of a search

Each mode looks only at its own side.  When both sides are asked for, the keyword side answers alone
just when there is no semantic backend; every other failure of the semantic side is reported.
-/

open Index (bind_eq_error)
open QueryLanguage (map_eq_ok)

/-! ## Failures of judging a note -/

/-- The failures that judging a note can have: a query without meaning, or a pattern that cannot be
read. -/
def Fault.isOfQuery : Fault -> Bool
  | .meaningless .. | .glob _ => true
  | _ => false

namespace Note

variable {note : Note} {now : Time.Instant} {fault : Fault}

theorem isOfQuery_of_windowOf {name value : String} {comparison : Comparison}
    (fails : windowOf now name comparison value = .error fault) : fault.isOfQuery = true := by
  unfold windowOf at fails
  repeat' split at fails
  all_goals cases fails
  all_goals rfl

theorem isOfQuery_of_instantOf {name value : String}
    (fails : instantOf now name value = .error fault) : fault.isOfQuery = true := by
  unfold instantOf at fails
  split at fails
  · cases fails
    rfl
  · cases fails

theorem isOfQuery_of_rangeOf {name start stop : String}
    (fails : rangeOf now name start stop = .error fault) : fault.isOfQuery = true := by
  rcases bind_eq_error.mp fails with first | ⟨_, _, fails⟩
  · exact isOfQuery_of_instantOf first
  · rcases bind_eq_error.mp fails with last | ⟨_, _, fails⟩
    · exact isOfQuery_of_instantOf last
    · split at fails
      · cases fails
        rfl
      · cases fails

theorem isOfQuery_of_dateWithin {name value : String} {window : Time.Window}
    (fails : note.dateWithin name value window = .error fault) : fault.isOfQuery = true := by
  unfold dateWithin at fails
  dsimp only at fails
  split at fails
  · cases fails
  · cases fails
    rfl

theorem isOfQuery_of_satisfiesDate {name value : String} {comparison : Comparison}
    (fails : note.satisfiesDate now name comparison value = .error fault) :
    fault.isOfQuery = true := by
  rcases bind_eq_error.mp fails with window | ⟨_, _, fails⟩
  · exact isOfQuery_of_windowOf window
  · exact isOfQuery_of_dateWithin fails

theorem isOfQuery_of_satisfiesField {name value : String} {comparison : Comparison}
    (fails : note.satisfiesField now name comparison value = .error fault) :
    fault.isOfQuery = true := by
  unfold satisfiesField at fails
  dsimp only at fails
  split at fails
  · exact isOfQuery_of_satisfiesDate fails
  · split at fails
    · cases fails
      rfl
    · cases fails

theorem isOfQuery_of_satisfiesWildcard {name pattern : String} {kind : WildcardKind}
    (fails : note.satisfiesWildcard name pattern kind = .error fault) :
    fault.isOfQuery = true := by
  unfold satisfiesWildcard at fails
  dsimp only at fails
  split at fails
  · cases fails
    rfl
  · split at fails
    · cases fails
      rfl
    · split at fails
      · cases fails
      · cases fails

mutual

theorem isOfQuery_of_satisfies (expression : Expr)
    (fails : note.satisfies now expression = .error fault) : fault.isOfQuery = true := by
  cases expression with
  | term value => cases fails
  | field name comparison value => exact isOfQuery_of_satisfiesField fails
  | not inner =>
      rcases bind_eq_error.mp fails with failed | ⟨_, _, ⟨⟩⟩
      exact isOfQuery_of_satisfies inner failed
  | or left right =>
      rcases bind_eq_error.mp fails with failed | ⟨result, _, failed⟩
      · exact isOfQuery_of_satisfies left failed
      · cases result with
        | true => cases failed
        | false => exact isOfQuery_of_satisfies right failed
  | and expressions => exact isOfQuery_of_satisfiesAll expressions fails
  | date name comparison value => exact isOfQuery_of_satisfiesDate fails
  | range name start stop =>
      rcases bind_eq_error.mp fails with failed | ⟨_, _, failed⟩
      · exact isOfQuery_of_rangeOf failed
      · exact isOfQuery_of_dateWithin failed
  | wildcard name pattern kind => exact isOfQuery_of_satisfiesWildcard fails
  | «exists» name negated => cases fails

theorem isOfQuery_of_satisfiesAll (expressions : List Expr)
    (fails : note.satisfiesAll now expressions = .error fault) : fault.isOfQuery = true := by
  cases expressions with
  | nil => cases fails
  | cons expression rest =>
      rcases bind_eq_error.mp fails with failed | ⟨result, _, failed⟩
      · exact isOfQuery_of_satisfies expression failed
      · cases result with
        | true => exact isOfQuery_of_satisfiesAll rest failed
        | false => cases failed

end

end Note

namespace Retriever

theorem isOfQuery_of_satisfying {now : Time.Instant} {conditions : Query}
    {candidates : List Scored} {fault : Fault}
    (fails : satisfying now conditions candidates = .error fault) : fault.isOfQuery = true := by
  induction candidates with
  | nil => cases fails
  | cons candidate rest inductionHypothesis =>
      rcases bind_eq_error.mp fails with failed | ⟨_, _, fails⟩
      · exact Note.isOfQuery_of_satisfiesAll conditions.expressions failed
      · rcases bind_eq_error.mp fails with failed | ⟨_, _, fails⟩
        · exact inductionHypothesis failed
        · cases fails

/-! ## What each mode answers -/

/-- A request in another mode. -/
def inMode (request : SearchRequest) (mode : SearchMode) : SearchRequest :=
  { request with mode := mode }

/-- A response with the explanations that a request asks for. -/
def withExplanations (request : SearchRequest) (response : SearchResponse) : SearchResponse :=
  { response with hits := response.hits.map (explained request) }

/-- The response of the keyword side as that of both sides. -/
def degraded (response : SearchResponse) : SearchResponse :=
  { response with mode := .hybrid, fellBack := true }

/-- Whether there is no semantic backend for a request: it is not available, or says so when it is
asked. -/
def LacksBackend (retriever : Retriever) (request : SearchRequest) : Prop :=
  retriever.backend.isAvailable = false ∨
    retriever.backend.similar request.text (limitOf request) = .error .semanticUnavailable

variable (retriever : Retriever) (request : SearchRequest)

theorem search_keyword : retriever.search false (inMode request .keyword) =
    (retriever.byKeyword request).map (withExplanations request) := by
  change (retriever.byKeyword request >>= fun response =>
    .ok (withExplanations request response)) = _
  cases retriever.byKeyword request <;> rfl

theorem search_semantic : retriever.search false (inMode request .semantic) =
    (retriever.bySimilarity request).map (withExplanations request) := by
  change (retriever.bySimilarity request >>= fun response =>
    .ok (withExplanations request response)) = _
  cases retriever.bySimilarity request <;> rfl

theorem search_hybrid : retriever.search false (inMode request .hybrid) =
    (retriever.byBoth request).map (withExplanations request) := by
  change (retriever.byBoth request >>= fun response =>
    .ok (withExplanations request response)) = _
  cases retriever.byBoth request <;> rfl

variable {retriever request}

theorem byKeyword_of_ok {found : List Scored} (succeeds : retriever.keyword request = .ok found) :
    retriever.byKeyword request =
      .ok ⟨found.map (singleHit .exact), .keyword, true, false, false⟩ := by
  rw [byKeyword, succeeds]
  rfl

theorem byKeyword_of_error {fault : Fault} (fails : retriever.keyword request = .error fault) :
    retriever.byKeyword request = .error fault := by
  rw [byKeyword, fails]
  rfl

theorem byBoth_of_error {fault : Fault} (fails : retriever.keyword request = .error fault) :
    retriever.byBoth request = .error fault := by
  rw [byBoth, fails]
  rfl

/-- When both sides succeed, their lists are fused. -/
theorem byBoth_of_ok {found similar : List Scored} (looked : retriever.keyword request = .ok found)
    (compared : retriever.semantic request = .ok similar) :
    retriever.byBoth request =
      (Fusion.fuse doubleArithmetic retriever.smoothing found similar).map fun merged =>
        ⟨(merged.take (limitOf request)).map fusedHit, .hybrid, true, true, false⟩ := by
  rw [byBoth, looked, compared]
  rfl

/-- The semantic side is found to be missing just when there is no backend. -/
theorem semantic_unavailable_iff :
    retriever.semantic request = .error .semanticUnavailable ↔
      LacksBackend retriever request := by
  unfold LacksBackend semantic
  cases available : retriever.backend.isAvailable with
  | false => exact ⟨fun _ => .inl rfl, fun _ => rfl⟩
  | true =>
      cases looked : retriever.backend.similar request.text (limitOf request) with
      | error fault =>
          constructor
          · rintro ⟨⟩
            exact .inr rfl
          · rintro (⟨⟨⟩⟩ | ⟨⟨⟩⟩)
            rfl
      | ok candidates =>
          constructor
          · intro fails
            -- What is left to fail is judging a candidate, which needs no backend.
            have cause := isOfQuery_of_satisfying fails
            cases cause
          · rintro (⟨⟨⟩⟩ | ⟨⟨⟩⟩)

/-- Without a backend the outcome for both sides is that of the keyword side. -/
theorem byBoth_of_lacksBackend (lacks : LacksBackend retriever request) :
    retriever.byBoth request = (retriever.byKeyword request).map degraded := by
  have missing := semantic_unavailable_iff.mpr lacks
  cases looked : retriever.keyword request with
  | error fault => rw [byBoth_of_error looked, byKeyword_of_error looked]; rfl
  | ok found =>
      rw [byKeyword_of_ok looked, byBoth, looked, missing]
      rfl

/-- Another failure of the semantic side is reported, unless the keyword side fails before. -/
theorem byBoth_of_semantic_error {fault : Fault} {found : List Scored}
    (succeeds : retriever.keyword request = .ok found)
    (fails : retriever.semantic request = .error fault) (other : fault ≠ .semanticUnavailable) :
    retriever.byBoth request = .error fault := by
  rw [byBoth, succeeds, fails]
  cases fault with
  | semanticUnavailable => exact absurd rfl other
  | _ => rfl

/-- Both sides answer with a semantic side, or without a backend by keywords. -/
theorem byBoth_cases {response : SearchResponse} (found : retriever.byBoth request = .ok response) :
    response.usedSemantic = true ∧ response.fellBack = false ∧ ¬LacksBackend retriever request ∨
      response.usedSemantic = false ∧ response.fellBack = true ∧
        LacksBackend retriever request := by
  cases looked : retriever.keyword request with
  | error fault =>
      rw [byBoth_of_error looked] at found
      cases found
  | ok listed =>
      cases compared : retriever.semantic request with
      | ok similar =>
          rw [byBoth_of_ok looked compared] at found
          rcases map_eq_ok.mp found with ⟨merged, _, rfl⟩
          refine .inl ⟨rfl, rfl, fun lacks => ?_⟩
          have missing := compared.symm.trans (semantic_unavailable_iff.mpr lacks)
          cases missing
      | error fault =>
          by_cases missing : fault = .semanticUnavailable
          · subst missing
            rw [byBoth, looked, compared] at found
            cases found
            exact .inr ⟨rfl, rfl, semantic_unavailable_iff.mp compared⟩
          · rw [byBoth_of_semantic_error looked compared missing] at found
            cases found

/-- No response is said to come from the semantic side and to have done without it. -/
theorem not_usedSemantic_and_fellBack {cancelled : Bool} {response : SearchResponse}
    (found : retriever.search cancelled request = .ok response) :
    ¬(response.usedSemantic = true ∧ response.fellBack = true) := by
  rintro ⟨used, fellBack⟩
  cases cancelled with
  | true => cases found
  | false =>
      change retriever.search false (inMode request request.mode) = .ok response at found
      cases mode : request.mode with
      | keyword =>
          rw [mode, search_keyword] at found
          rcases map_eq_ok.mp found with ⟨inner, answered, rfl⟩
          rcases map_eq_ok.mp answered with ⟨listed, _, rfl⟩
          cases used
      | semantic =>
          rw [mode, search_semantic] at found
          rcases map_eq_ok.mp found with ⟨inner, answered, rfl⟩
          rcases map_eq_ok.mp answered with ⟨listed, _, rfl⟩
          cases fellBack
      | hybrid =>
          rw [mode, search_hybrid] at found
          rcases map_eq_ok.mp found with ⟨inner, answered, rfl⟩
          rcases byBoth_cases answered with ⟨_, notBack, _⟩ | ⟨notUsed, _⟩
          · cases notBack.symm.trans fellBack
          · cases notUsed.symm.trans used

/-- What each mode depends on.  A request by keywords has one outcome for all backends, and a
request by similarity has one for all indexes.  Without a backend a request for both has the outcome
of the request by keywords, but for the mode and the mark of the fallback; the mark is set only
then.  Every other failure of the semantic side is reported by a request by similarity, and by a
request for both whose keyword side succeeds. -/
theorem modes_are_isolated (retriever : Retriever) (request : SearchRequest) :
    (∀ backend, { retriever with backend := backend }.search false (inMode request .keyword) =
        retriever.search false (inMode request .keyword)) ∧
      (∀ find, { retriever with find := find }.search false (inMode request .semantic) =
        retriever.search false (inMode request .semantic)) ∧
      (LacksBackend retriever request →
        retriever.search false (inMode request .hybrid) =
            (retriever.search false (inMode request .keyword)).map degraded ∧
          retriever.search false (inMode request .semantic) = .error .semanticUnavailable) ∧
      (∀ fault, retriever.semantic request = .error fault → fault ≠ .semanticUnavailable →
        retriever.search false (inMode request .semantic) = .error fault ∧
          ∀ response, retriever.search false (inMode request .keyword) = .ok response →
            retriever.search false (inMode request .hybrid) = .error fault) ∧
      (∀ response, retriever.search false (inMode request .hybrid) = .ok response →
        (response.fellBack = true ↔ LacksBackend retriever request)) ∧
      ∀ cancelled response, retriever.search cancelled request = .ok response →
        ¬(response.usedSemantic = true ∧ response.fellBack = true) := by
  have bySimilarityFails : ∀ fault, retriever.semantic request = .error fault →
      retriever.search false (inMode request .semantic) = .error fault := by
    intro fault fails
    rw [search_semantic, bySimilarity, fails]
    rfl
  refine ⟨?keyword, ?semantic, ?lacking, ?failing, ?marked, ?never⟩
  case keyword => exact fun _ => rfl
  case semantic => exact fun _ => rfl
  case lacking =>
    intro lacks
    refine ⟨?_, bySimilarityFails _ (semantic_unavailable_iff.mpr lacks)⟩
    rw [search_hybrid, search_keyword, byBoth_of_lacksBackend lacks]
    cases retriever.byKeyword request <;> rfl
  case failing =>
    intro fault fails other
    refine ⟨bySimilarityFails fault fails, fun response answered => ?_⟩
    rw [search_keyword] at answered
    rcases map_eq_ok.mp answered with ⟨inner, byKeywords, _⟩
    rcases map_eq_ok.mp byKeywords with ⟨found, succeeds, _⟩
    rw [search_hybrid, byBoth_of_semantic_error succeeds fails other]
    rfl
  case marked =>
    intro response answered
    rw [search_hybrid] at answered
    rcases map_eq_ok.mp answered with ⟨inner, byBoth, rfl⟩
    rcases byBoth_cases byBoth with ⟨_, notBack, present⟩ | ⟨_, back, lacks⟩
    · exact ⟨fun back => absurd (notBack.symm.trans back) Bool.false_ne_true,
        fun lacks => absurd lacks present⟩
    · exact ⟨fun _ => lacks, fun _ => back⟩
  case never => exact fun cancelled response found => not_usedSemantic_and_fellBack found

/-- A retriever whose index finds one note. -/
def singleNote (backend : SemanticBackend) : Retriever :=
  ⟨fun _ => .ok ⟨[⟨Note.ofPath "a.md", 1, none⟩], 1⟩, backend, 60, ⟨0, 0⟩⟩

/-- A request for the note. -/
def noteRequest : SearchRequest :=
  ⟨"a", .empty, .hybrid, 5, false⟩

/-- Keywords answer for a backend that is missing, but not for one that fails. -/
theorem failure_is_not_degraded :
    (singleNote .missing).search false (inMode noteRequest .hybrid) =
        .ok ⟨[singleHit .exact ⟨Note.ofPath "a.md", 1⟩], .hybrid, true, false, true⟩ ∧
      (singleNote ⟨true, fun _ _ => .error (.io "offline")⟩).search false
        (inMode noteRequest .hybrid) = .error (.io "offline") := by
  constructor
  · have lacks : LacksBackend (singleNote .missing) noteRequest := .inl rfl
    rw [((modes_are_isolated _ _).2.2.1 lacks).1]
    rfl
  · have fails : (singleNote ⟨true, fun _ _ => .error (.io "offline")⟩).semantic noteRequest =
        .error (.io "offline") := rfl
    have other : Fault.io "offline" ≠ .semanticUnavailable := by decide
    have answered : (singleNote ⟨true, fun _ _ => .error (.io "offline")⟩).search false
        (inMode noteRequest .keyword) =
          .ok ⟨[singleHit .exact ⟨Note.ofPath "a.md", 1⟩], .keyword, true, false, false⟩ := rfl
    exact ((modes_are_isolated _ _).2.2.2.1 _ fails other).2 _ answered

end Retriever

end Commonplace
