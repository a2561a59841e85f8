import Commonplace.Proofs.Index.Conditions
import Commonplace.Proofs.Index.Ranking
import Commonplace.Proofs.Search.Fusion
import Commonplace.Proofs.Search.Modes

namespace Commonplace

/-!
# No hit violates the conditions

Hits come from an index, which judges conditions by terms, and from a semantic backend, whose
candidates are judged one by one.  Both judgements agree on plain conditions, fusion makes up no
notes, and what is cut off or explained keeps its note, so every hit of every mode meets the
conditions of its request.
-/

open Index (bind_eq_ok Contents Criterion IsSelected PatternEngine largestValue optionsCriterion
  startCriterion stored)
open QueryLanguage (map_eq_ok)

namespace Index

variable [PatternEngine]

/-- A note that the criterion of some options selects is selected by each expression of their
query. -/
theorem isSelected_of_optionsCriterion {now : Time.Instant} {options : SearchOptions}
    {query : Query} (asks : options.query = some query) {found : Criterion}
    (translated : optionsCriterion now options = .ok found) {note : Note}
    (selected : found.selects note = true) :
    ∀ expression ∈ query.expressions, IsSelected now note expression := by
  rcases optionsCriterion_eq_ok.mp translated with ⟨asked, hasAsked, _, rfl⟩
  rcases exists_criteria_of_query hasAsked with ⟨required, hasRequired, alike⟩
  rw [asks, Option.elim_some] at hasRequired
  rw [filteredCriterion, Criterion.selects_conjunction_iff] at selected
  have allAsked : ∀ criterion ∈ asked, criterion.selects note = true :=
    fun criterion member => selected.1 criterion (by simp [member])
  exact isSelected_of_criteria hasRequired ((alike note).mp allAsked)

/-- Every hit of a search is a note of the index, as it is read back, that each expression of the
query selects. -/
theorem exists_note_of_mem_hits {contents : Contents} {now : Time.Instant}
    {options : SearchOptions} {query : Query} (asks : options.query = some query)
    {results : Results} (found : find contents now options = .ok results) :
    ∀ hit ∈ results.hits, ∃ note ∈ contents.notes, hit.note = stored note ∧
      ∀ expression ∈ query.expressions, IsSelected now note expression := by
  rcases exists_of_find_eq_ok found with ⟨criterion, translated, _, rfl⟩
  rw [resultsOf_eq]
  intro hit member
  have ranked := List.mem_of_mem_drop (List.mem_of_mem_take member)
  have listed := (ranking_perm contents criterion options.sortField
    options.sortDirection).mem_iff.mp (List.mem_map_of_mem ranked)
  rcases List.mem_map.mp listed with ⟨note, inSelected, same⟩
  rcases List.mem_filter.mp inSelected with ⟨inNotes, selected⟩
  exact ⟨note, inNotes, same.symm, isSelected_of_optionsCriterion asks translated selected⟩

theorem length_hits_le {contents : Contents} {now : Time.Instant} {options : SearchOptions}
    {results : Results} (found : find contents now options = .ok results) :
    results.hits.length ≤ options.effectiveLimit := by
  rcases exists_of_find_eq_ok found with ⟨criterion, _, _, rfl⟩
  rw [resultsOf_eq]
  exact List.length_take_le _ _

end Index

namespace Retriever

/-- Whether a note satisfies some conditions at every time. -/
def Meets (conditions : Query) (note : Note) : Prop :=
  ∀ now, note.satisfiesQuery now conditions = .ok true

/-! ## The semantic side -/

/-- The candidates that are kept are those that satisfy the conditions, in their order. -/
theorem satisfying_eq_filter {now : Time.Instant} {conditions : Query}
    {candidates kept : List Scored} (found : satisfying now conditions candidates = .ok kept) :
    kept = candidates.filter fun candidate =>
      decide (candidate.note.satisfiesQuery now conditions = .ok true) := by
  induction candidates generalizing kept with
  | nil =>
      cases found
      rfl
  | cons candidate rest inductionHypothesis =>
      rcases bind_eq_ok.mp found with ⟨keeps, answered, more⟩
      rcases bind_eq_ok.mp more with ⟨others, hasOthers, same⟩
      cases same
      rw [inductionHypothesis hasOthers]
      cases keeps with
      | true =>
          rw [List.filter_cons_of_pos]
          · rfl
          · rw [answered]
            decide
      | false =>
          rw [List.filter_cons_of_neg]
          · rfl
          · rw [answered]
            decide

theorem semantic_eq_ok {retriever : Retriever} {request : SearchRequest} {kept : List Scored}
    (found : retriever.semantic request = .ok kept) :
    ∃ candidates, retriever.backend.similar request.text (limitOf request) = .ok candidates ∧
      satisfying retriever.now request.conditions candidates = .ok kept := by
  unfold semantic at found
  cases available : retriever.backend.isAvailable with
  | false =>
      rw [available] at found
      cases found
  | true =>
      rw [available] at found
      exact bind_eq_ok.mp found

/-! ## The keyword side -/

theorem mem_keywordQuery {request : SearchRequest} :
    ∀ expression ∈ request.conditions.expressions,
      expression ∈ (keywordQuery request).expressions := by
  intro expression member
  unfold keywordQuery
  split
  · exact member
  · exact List.mem_append_left _ member

theorem limitOf_ne_zero (request : SearchRequest) : limitOf request ≠ 0 := by
  unfold limitOf
  split
  · decide
  · rename_i notZero
    simpa using notZero

theorem exists_arranged (request : SearchRequest) : ∃ field direction,
    keywordOptions request =
      { SearchOptions.empty with query := some (keywordQuery request) }.arranged field direction
        (limitOf request) 0 := by
  unfold keywordOptions
  dsimp only
  split
  · exact ⟨.path, .ascending, rfl⟩
  · exact ⟨.relevance, .descending, rfl⟩

theorem query_keywordOptions (request : SearchRequest) :
    (keywordOptions request).query = some (keywordQuery request) := by
  rcases exists_arranged request with ⟨field, direction, same⟩
  rw [same]
  rfl

theorem effectiveLimit_keywordOptions (request : SearchRequest) :
    (keywordOptions request).effectiveLimit = limitOf request := by
  rcases exists_arranged request with ⟨field, direction, same⟩
  rw [same]
  have notZero : (limitOf request == 0) = false := beq_eq_false_iff_ne.mpr (limitOf_ne_zero request)
  change (if limitOf request == 0 then _ else limitOf request) = limitOf request
  rw [notZero]
  rfl

/-! ## The two judgements -/

/-- Whether a request asks for plain conditions that were read from flags. -/
structure Asks (conditions : List Condition) (request : SearchRequest) : Prop where
  read : ∃ all any none, Condition.parseAll all any none = .ok conditions
  plain : ∀ condition ∈ conditions, condition.IsPlain
  query : Condition.query conditions = .ok request.conditions

/-- Whether an index can tell of all its notes what some conditions say of them. -/
def CanTell (conditions : List Condition) (contents : Contents) : Prop :=
  ∀ note ∈ contents.notes,
    Condition.IsFiled note ∧ ∀ condition ∈ conditions, condition.InReach note

section Asks

variable {conditions : List Condition} {request : SearchRequest} (asks : Asks conditions request)

include asks

theorem Asks.isRead : ∀ condition ∈ conditions, condition.IsRead := by
  rcases asks.read with ⟨all, any, none, parsed⟩
  exact Condition.isRead_of_parseAll parsed

theorem Asks.satisfiesQuery (note : Note) (now : Time.Instant) :
    note.satisfiesQuery now request.conditions =
      .ok (request.conditions.expressions.all note.passes) := by
  apply Note.satisfiesAll_of_isTimeless
  apply Condition.isTimeless_of_query asks.query
  intro condition listed expression made
  exact Condition.isTest_of_expr (asks.isRead condition listed) (asks.plain condition listed) made

/-- A note that satisfies the conditions once satisfies them always. -/
theorem Asks.meets_of_satisfiesQuery {note : Note} {now : Time.Instant}
    (satisfies : note.satisfiesQuery now request.conditions = .ok true) :
    Meets request.conditions note := by
  intro later
  rw [asks.satisfiesQuery note now] at satisfies
  rw [asks.satisfiesQuery note later, satisfies]

/-- A note that an index selects by the conditions satisfies them as it is read back. -/
theorem Asks.meets_of_isSelected [PatternEngine] {note : Note} (filed : Condition.IsFiled note)
    (reach : ∀ condition ∈ conditions, condition.InReach note) {clock : Time.Instant}
    (selected : ∀ expression ∈ request.conditions.expressions, IsSelected clock note expression) :
    Meets request.conditions (stored note) := by
  intro now
  rw [asks.satisfiesQuery, List.all_eq_true.mpr]
  intro expression member
  exact Condition.passes_of_query asks.query asks.isRead asks.plain filed reach expression member
    (selected expression member)

variable {retriever : Retriever}

theorem Asks.meets_of_keyword [PatternEngine] {store : Index.Store} {handle : String}
    {cancelled : Bool} {clock : Time.Instant}
    (finds : retriever.find = store.find handle cancelled clock)
    (canTell : ∀ contents, store.view handle cancelled = .ok contents → CanTell conditions contents)
    {listed : List Scored} (found : retriever.keyword request = .ok listed) :
    (∀ entry ∈ listed, Meets request.conditions entry.note) ∧
      listed.length ≤ limitOf request := by
  rcases bind_eq_ok.mp found with ⟨results, hasResults, same⟩
  cases same
  rw [finds] at hasResults
  rcases bind_eq_ok.mp hasResults with ⟨contents, viewed, searched⟩
  constructor
  · intro entry member
    rcases List.mem_map.mp member with ⟨hit, inHits, rfl⟩
    rcases Index.exists_note_of_mem_hits (query_keywordOptions request) searched hit inHits with
      ⟨note, inNotes, same, selects⟩
    rcases canTell contents viewed note inNotes with ⟨filed, reach⟩
    rw [same]
    exact asks.meets_of_isSelected filed reach fun expression asked =>
      selects expression (mem_keywordQuery expression asked)
  · rw [List.length_map, ← effectiveLimit_keywordOptions]
    exact Index.length_hits_le searched

theorem Asks.meets_of_semantic {kept : List Scored}
    (found : retriever.semantic request = .ok kept) :
    ∀ entry ∈ kept, Meets request.conditions entry.note := by
  rcases semantic_eq_ok found with ⟨candidates, _, filtered⟩
  rw [satisfying_eq_filter filtered]
  intro entry member
  exact asks.meets_of_satisfiesQuery (of_decide_eq_true (List.mem_filter.mp member).2)

end Asks

/-! ## Sound responses -/

/-- Whether a response answers a request: all hits meet the conditions, there are not too many, and
fused hits have different paths. -/
structure IsSound (request : SearchRequest) (response : SearchResponse) : Prop where
  meets : ∀ hit ∈ response.hits, Meets request.conditions hit.note
  bounded : response.hits.length ≤ limitOf request
  apart : response.mode = .hybrid → response.fellBack = false →
    (response.hits.map fun hit => Fusion.key hit.note).Nodup

section Sound

variable {retriever : Retriever} {request : SearchRequest}

theorem note_explained (request : SearchRequest) (hit : SearchHit) :
    (explained request hit).note = hit.note := by
  unfold explained
  split <;> rfl

theorem isSound_withExplanations {response : SearchResponse} (sound : IsSound request response) :
    IsSound request (withExplanations request response) where
  meets := by
    intro hit member
    rcases List.mem_map.mp member with ⟨plain, inHits, rfl⟩
    rw [note_explained]
    exact sound.meets plain inHits
  bounded := by
    rw [withExplanations, List.length_map]
    exact sound.bounded
  apart := by
    intro fused notBack
    have kept : ((withExplanations request response).hits.map fun hit => Fusion.key hit.note) =
        response.hits.map fun hit => Fusion.key hit.note := by
      rw [withExplanations, List.map_map]
      exact List.map_congr_left fun hit _ => congrArg Fusion.key (note_explained request hit)
    rw [kept]
    exact sound.apart fused notBack

/-- A response with the hits of one list is sound, if it is not said to be fused. -/
theorem isSound_of_list {entries : List Scored}
    (meets : ∀ entry ∈ entries, Meets request.conditions entry.note)
    (bounded : entries.length ≤ limitOf request) {matchType : MatchType} {mode : SearchMode}
    {usedKeyword usedSemantic fellBack : Bool}
    (single : mode = .hybrid → fellBack ≠ false) :
    IsSound request
      ⟨entries.map (singleHit matchType), mode, usedKeyword, usedSemantic, fellBack⟩ where
  meets := by
    intro hit member
    rcases List.mem_map.mp member with ⟨entry, listed, rfl⟩
    exact meets entry listed
  bounded := by
    rw [List.length_map]
    exact bounded
  apart := fun fused notBack => absurd notBack (single fused)

/-- Fused lists make up no notes, and no path twice. -/
theorem isSound_of_merge {keyword semantic : List Scored}
    (keywordMeets : ∀ entry ∈ keyword, Meets request.conditions entry.note)
    (semanticMeets : ∀ entry ∈ semantic, Meets request.conditions entry.note) (constant : Nat) :
    IsSound request
      ⟨((Fusion.merge doubleArithmetic constant keyword semantic).take (limitOf request)).map
        fusedHit, .hybrid, true, true, false⟩ where
  meets := by
    intro hit member
    rcases List.mem_map.mp member with ⟨result, taken, rfl⟩
    rcases Fusion.exists_note_of_mem_merge (List.mem_of_mem_take taken) with ⟨entry, listed, same⟩
    change Meets request.conditions result.note
    rw [← same]
    exact (List.mem_append.mp listed).elim (keywordMeets entry) (semanticMeets entry)
  bounded := by
    rw [List.length_map]
    exact List.length_take_le _ _
  apart := by
    intro _ _
    have distinct := Fusion.keys_merge_nodup doubleArithmetic constant keyword semantic
    rw [List.map_map]
    exact distinct.sublist ((List.take_sublist _ _).map _)

end Sound

/-! ## Every mode -/

theorem search_eq_ok {retriever : Retriever} {stopped : Bool} {request : SearchRequest}
    {response : SearchResponse} (answered : retriever.search stopped request = .ok response) :
    retriever.search false (inMode request request.mode) = .ok response := by
  cases stopped with
  | true => cases answered
  | false => exact answered

theorem mode_of_byBoth {retriever : Retriever} {request : SearchRequest} {response : SearchResponse}
    (found : retriever.byBoth request = .ok response) : response.mode = .hybrid := by
  rcases bind_eq_ok.mp found with ⟨listed, _, more⟩
  split at more
  · rcases bind_eq_ok.mp more with ⟨merged, _, same⟩
    cases same
    rfl
  · cases more
    rfl
  · cases more

/-- The hits of a request by similarity are the candidates that satisfy the conditions. -/
theorem hits_of_semantic {retriever : Retriever} {stopped : Bool} {request : SearchRequest}
    {response : SearchResponse} (answered : retriever.search stopped request = .ok response)
    (semantic : request.mode = .semantic) :
    ∃ candidates, retriever.backend.similar request.text (limitOf request) = .ok candidates ∧
      response.hits = (candidates.filter fun candidate =>
        decide (candidate.note.satisfiesQuery retriever.now request.conditions = .ok true)).map
          fun candidate => explained request (singleHit .semantic candidate) := by
  have found := search_eq_ok answered
  rw [semantic, search_semantic] at found
  rcases map_eq_ok.mp found with ⟨plain, bySimilarity, rfl⟩
  rcases map_eq_ok.mp bySimilarity with ⟨kept, compared, rfl⟩
  rcases semantic_eq_ok compared with ⟨candidates, similar, filtered⟩
  refine ⟨candidates, similar, ?_⟩
  rw [← satisfying_eq_filter filtered]
  exact List.map_map

section Answers

variable {retriever : Retriever} {conditions : List Condition} {request : SearchRequest}
  (asks : Asks conditions request) {response : SearchResponse}

include asks

section Keyword

variable [PatternEngine] {store : Index.Store} {handle : String} {cancelled : Bool}
  {clock : Time.Instant}
  (finds : retriever.find = store.find handle cancelled clock)
  (canTell : ∀ contents, store.view handle cancelled = .ok contents → CanTell conditions contents)

include finds canTell

theorem isSound_of_byKeyword (found : retriever.byKeyword request = .ok response) :
    IsSound request response := by
  rcases map_eq_ok.mp found with ⟨listed, looked, rfl⟩
  have sound := asks.meets_of_keyword finds canTell looked
  exact isSound_of_list sound.1 sound.2 nofun

theorem isSound_of_byBoth (found : retriever.byBoth request = .ok response) :
    IsSound request response := by
  rcases bind_eq_ok.mp found with ⟨listed, looked, more⟩
  have sound := asks.meets_of_keyword finds canTell looked
  -- Of the failures of the semantic side only the missing backend leads to an answer.
  split at more
  · rename_i similar compared
    rcases bind_eq_ok.mp more with ⟨merged, fused, same⟩
    cases same
    rw [← (Fusion.fuse_eq_ok.mp fused).2]
    exact isSound_of_merge sound.1 (asks.meets_of_semantic compared) retriever.smoothing
  · cases more
    exact isSound_of_list sound.1 sound.2 nofun
  · cases more

end Keyword

theorem isSound_of_bySimilarity
    (atMost : ∀ candidates,
      retriever.backend.similar request.text (limitOf request) = .ok candidates →
        candidates.length ≤ limitOf request)
    (found : retriever.bySimilarity request = .ok response) : IsSound request response := by
  rcases map_eq_ok.mp found with ⟨kept, compared, rfl⟩
  rcases semantic_eq_ok compared with ⟨candidates, similar, filtered⟩
  have short : kept.length ≤ limitOf request := by
    rw [satisfying_eq_filter filtered]
    exact (List.length_filter_le _ _).trans (atMost candidates similar)
  exact isSound_of_list (asks.meets_of_semantic compared) short nofun

end Answers

/-- No hit violates the conditions of its request, in any mode and at any time.  There are at most
as many hits as are asked for, if the backend finds no more.  Fused hits have different paths, and
the hits of a request by similarity are the candidates that satisfy the conditions, in their
order. -/
theorem hits_meet_conditions [PatternEngine] (store : Index.Store) (handle : String)
    (cancelled stopped : Bool) (clock now : Time.Instant) (backend : SemanticBackend)
    (constant : Nat) (conditions : List Condition) (request : SearchRequest)
    (asks : Asks conditions request)
    (canTell : request.mode ≠ .semantic → ∀ contents,
      store.view handle cancelled = .ok contents → CanTell conditions contents)
    (atMost : ∀ candidates, backend.similar request.text (limitOf request) = .ok candidates →
      candidates.length ≤ limitOf request) (response : SearchResponse)
    (answered : Retriever.search ⟨store.find handle cancelled clock, backend, constant, now⟩
      stopped request = .ok response) :
    (∀ hit ∈ response.hits, ∀ later,
        hit.note.satisfiesQuery later request.conditions = .ok true) ∧
      response.hits.length ≤ limitOf request ∧
      (request.mode = .hybrid → response.fellBack = false →
        (response.hits.map fun hit => Fusion.key hit.note).Nodup) ∧
      (request.mode = .semantic →
        ∃ candidates, backend.similar request.text (limitOf request) = .ok candidates ∧
          response.hits = (candidates.filter fun candidate =>
            decide (candidate.note.satisfiesQuery now request.conditions = .ok true)).map
              fun candidate => explained request (singleHit .semantic candidate)) := by
  have sound : IsSound request response ∧
      (request.mode = .hybrid → response.mode = .hybrid) := by
    have found := search_eq_ok answered
    cases mode : request.mode with
    | keyword =>
        rw [mode, search_keyword] at found
        rcases map_eq_ok.mp found with ⟨plain, byKeywords, rfl⟩
        have told := canTell (by rw [mode]; decide)
        exact ⟨isSound_withExplanations (isSound_of_byKeyword asks rfl told byKeywords), nofun⟩
    | semantic =>
        rw [mode, search_semantic] at found
        rcases map_eq_ok.mp found with ⟨plain, bySimilarity, rfl⟩
        exact ⟨isSound_withExplanations (isSound_of_bySimilarity asks atMost bySimilarity),
          nofun⟩
    | hybrid =>
        rw [mode, search_hybrid] at found
        rcases map_eq_ok.mp found with ⟨plain, answeredByBoth, rfl⟩
        have fused : plain.mode = .hybrid := mode_of_byBoth answeredByBoth
        have told := canTell (by rw [mode]; decide)
        exact ⟨isSound_withExplanations (isSound_of_byBoth asks rfl told answeredByBoth),
          fun _ => fused⟩
  exact ⟨sound.1.meets, sound.1.bounded, fun both => sound.1.apart (sound.2 both),
    hits_of_semantic answered⟩

/-! ## Notes that are judged alike, and notes that are not -/

/-- A store in memory that holds some notes, and its handle. -/
def holding (notes : List Note) : Index.Store :=
  ⟨false, ⟨notes, notes⟩, 1, none, [("0", ⟨some ⟨notes, notes⟩, .ready, none⟩)]⟩

open scoped Index.PatternEngine

/-- A retriever for these notes. -/
def overNotes (notes : List Note) (backend : SemanticBackend) : Retriever :=
  ⟨(holding notes).find "0" false ⟨0, 0⟩, backend, 60, ⟨0, 0⟩⟩

theorem isFiled_of_keys {note : Note} (path : note.path ≠ "")
    (apart : (note.metadata.map Prod.fst).Nodup)
    (keys : ∀ key ∈ note.metadata.map Prod.fst,
      Text.trim key = key ∧ '=' ∉ key.toList ∧ Text.lower key = key) : Condition.IsFiled note where
  path := path
  keysApart := apart
  keys := fun _ member =>
    ⟨(keys _ (List.mem_map_of_mem member)).1, (keys _ (List.mem_map_of_mem member)).2.1⟩
  lowKeys := fun _ member => (keys _ (List.mem_map_of_mem member)).2.2

/-- An open task. -/
def openTask : Note :=
  { Note.ofPath "projects/a.md" with metadata := [("status", .text "Open")] }

/-- An open task that was put away. -/
def archivedTask : Note :=
  { Note.ofPath "archive/b.md" with metadata := [("status", .text "open")] }

/-- The open tasks outside of the archive are asked for. -/
def taskConditions : List Condition :=
  [⟨.all, "data.status", "open"⟩, ⟨.none, "path", "archive/"⟩]

/-- A request for them. -/
def taskRequest : SearchRequest :=
  ⟨"", .ofExpressions [.field "metadata.status" .equals "open",
    .not (.field "path" .startsWith "archive/")], .hybrid, 5, false⟩

/-- A backend that knows the first task under another spelling, and the second. -/
def taskBackend : SemanticBackend :=
  ⟨true, fun _ _ => .ok [⟨{ openTask with path := "Projects/A.md" }, 1⟩, ⟨archivedTask, 1⟩]⟩

theorem asks_taskRequest : Asks taskConditions taskRequest where
  read := ⟨["data.status=open"], [], ["path = archive/"], by decide +kernel⟩
  plain := by decide +kernel
  query := by rfl

theorem canTell_tasks : CanTell taskConditions
    ⟨[openTask, archivedTask], [openTask, archivedTask]⟩ := by
  intro note member
  have filed : Condition.IsFiled note := by
    rcases List.mem_pair.mp member with rfl | rfl <;>
      exact isFiled_of_keys (by decide) (by decide) (by decide +kernel)
  have texts : ∀ entry ∈ note.metadata, Index.heldValue entry.2 = entry.2 := by
    rcases List.mem_pair.mp member with rfl | rfl <;>
      exact List.forall_mem_singleton.mpr rfl
  have seen : '\n' ∉ note.path.toList ∧
      (Text.lower note.path).utf8ByteSize ≤ largestValue := by
    rcases List.mem_pair.mp member with rfl | rfl <;> decide +kernel
  exact ⟨filed, fun _ _ => ⟨fun _ _ _ entry inMetadata _ => congrArg _ (texts entry inMetadata),
    fun _ _ _ => seen⟩⟩

/-- Both sides know an open task, under two spellings of its path, and it is found once. -/
theorem open_task_is_found_once :
    ∃ response, (overNotes [openTask, archivedTask] taskBackend).search false taskRequest =
        .ok response ∧
      response.hits.map (fun hit => hit.note.path) = ["projects/a.md"] ∧
      ∀ hit ∈ response.hits, ∀ later,
        hit.note.satisfiesQuery later taskRequest.conditions = .ok true := by
  have canTell : ∀ contents, (holding [openTask, archivedTask]).view "0" false = .ok contents →
      CanTell taskConditions contents := by
    rintro contents ⟨⟩
    exact canTell_tasks
  have atMost : ∀ candidates, taskBackend.similar taskRequest.text (limitOf taskRequest) =
      .ok candidates → candidates.length ≤ limitOf taskRequest := by
    rintro candidates ⟨⟩
    decide
  have paths : ((overNotes [openTask, archivedTask] taskBackend).search false taskRequest).map
      (fun response => response.hits.map fun hit => hit.note.path) = .ok ["projects/a.md"] := by
    decide +kernel
  rcases map_eq_ok.mp paths with ⟨response, answered, samePaths⟩
  have meets := hits_meet_conditions (holding [openTask, archivedTask]) "0" false false ⟨0, 0⟩
    ⟨0, 0⟩ taskBackend 60 taskConditions taskRequest asks_taskRequest (fun _ => canTell) atMost
    response answered
  exact ⟨response, answered, samePaths, meets.1⟩

/-- A request for what satisfies a query. -/
def plainRequest (query : Query) : SearchRequest :=
  ⟨"", query, .keyword, 10, false⟩

/-- Whether a search by keywords finds a note that does not satisfy the plain conditions that it
was searched by. -/
def IsViolated (conditions : List Condition) (note : Note) : Prop :=
  (∀ condition ∈ conditions, condition.IsPlain) ∧ Condition.IsFiled note ∧
    ∃ query, Condition.query conditions = .ok query ∧
      ∃ response, (overNotes [note] .missing).search false (plainRequest query) = .ok response ∧
        ∃ hit ∈ response.hits, hit.note.satisfiesQuery ⟨0, 0⟩ query = .ok false

theorem isViolated_of_selects {conditions : List Condition}
    (plain : ∀ condition ∈ conditions, condition.IsPlain) {note : Note}
    (filed : Condition.IsFiled note) (loadable : Index.Loadable note) {query : Query}
    (made : Condition.query conditions = .ok query) {criterion : Criterion}
    (translated : optionsCriterion ⟨0, 0⟩ (keywordOptions (plainRequest query)) =
      .ok criterion)
    (selected : criterion.selects note = true)
    (fails : (stored note).satisfiesQuery ⟨0, 0⟩ query = .ok false) :
    IsViolated conditions note := by
  -- The order that is asked for depends on the query, but one note has only one ranking.
  rcases exists_arranged (plainRequest query) with ⟨field, direction, arranged⟩
  have one : Index.selected [note] criterion = [note] := by
    rw [Index.selected, List.filter_singleton, selected]
    rfl
  have listed := Index.ranking_perm ⟨[note], [note]⟩ criterion field direction
  rw [one, List.map_singleton, List.perm_singleton, List.map_eq_singleton_iff] at listed
  rcases listed with ⟨hit, ranked, same⟩
  have found : Index.find ⟨[note], [note]⟩ ⟨0, 0⟩ (keywordOptions (plainRequest query)) = _ :=
    Index.find_eq_resultsOf translated
      (Index.loadable_of_mem_notesToLoad (List.forall_mem_singleton.mpr loadable))
  rw [Index.resultsOf_eq, arranged] at found
  change Index.find _ _ _ = .ok ⟨((Index.ranking _ _ field direction).drop 0).take 10, _⟩ at found
  rw [ranked, ← arranged] at found
  have looked : (overNotes [note] .missing).keyword (plainRequest query) =
      .ok [⟨hit.note, hit.score⟩] := by
    change (Index.find _ _ _ >>= _) = _
    rw [found]
    rfl
  have answered : (overNotes [note] .missing).search false (plainRequest query) =
      .ok ⟨[singleHit .exact ⟨hit.note, hit.score⟩], .keyword, true, false, false⟩ := by
    change Retriever.search _ false (inMode (plainRequest query) .keyword) = _
    rw [search_keyword, byKeyword_of_ok looked]
    rfl
  refine ⟨plain, filed, query, made, _, answered, _, List.mem_singleton_self _, ?_⟩
  change hit.note.satisfiesQuery ⟨0, 0⟩ query = .ok false
  rw [same]
  exact fails

/-- A condition that leaves the projects out. -/
def noProjects : Condition :=
  ⟨.none, "path", "projects/"⟩

/-- A project is found although projects are left out, if the index does not see that its path
begins like theirs. -/
theorem isViolated_of_hidden {note : Note} (filed : Condition.IsFiled note)
    (loadable : Index.Loadable note)
    (starts : "projects/".toList.isPrefixOf (Text.lower note.path).toList = true)
    (hidden : (startCriterion "projects/").selects note = false) :
    IsViolated [noProjects] note := by
  have plain : ∀ condition ∈ [noProjects], condition.IsPlain := by decide +kernel
  have made : Condition.query [noProjects] =
      .ok (.ofExpressions [.not (.field "path" .startsWith "projects/")]) := by rfl
  have asks : Asks [noProjects] (plainRequest _) :=
    ⟨⟨[], [], ["path=projects/"], by decide +kernel⟩, plain, made⟩
  have translated : optionsCriterion ⟨0, 0⟩ (keywordOptions (plainRequest
      (.ofExpressions [.not (.field "path" .startsWith "projects/")]))) =
        .ok (.conjunction [.conjunction [(startCriterion "projects/").negation] []] []) :=
    rfl
  apply isViolated_of_selects plain filed loadable made translated
  · have unseen : (startCriterion "projects/").negation.selects note = true := by
      rw [Criterion.selects_negation, hidden]
      rfl
    exact Criterion.selects_conjunction_iff.mpr ⟨List.forall_mem_singleton.mpr
      (Criterion.selects_conjunction_iff.mpr
        ⟨List.forall_mem_singleton.mpr unseen, nofun⟩), nofun⟩
  · have passed : (stored note).passes (.field "path" .startsWith "projects/") = true := by
      apply (Condition.passes_field (asks.isRead noProjects List.mem_cons_self) _ _ _).mpr
      rw [Index.ofName_path, Condition.values_path filed.path]
      refine ⟨note.path, List.mem_singleton_self _, ?_⟩
      have low : Text.lower noProjects.value = "projects/" := by decide +kernel
      rw [low]
      exact starts
    have answer := asks.satisfiesQuery (stored note) ⟨0, 0⟩
    change (stored note).satisfiesQuery ⟨0, 0⟩ _ =
      .ok (!(stored note).passes (.field "path" .startsWith "projects/") && true) at answer
    rw [passed] at answer
    exact answer

/-- A project whose path has a line feed in it. -/
def brokenPath : Note :=
  Note.ofPath "projects/a\nb.md"

/-- A project whose path has a number of letters after the directory. -/
def longPath (count : Nat) : Note :=
  Note.ofPath ("projects/" ++ String.ofList (List.replicate count 'a'))

/-- A note with a number that reads back as its neighbour. -/
def fineNumber : Note :=
  { Note.ofPath "a.md" with
    metadata := [("priority", .fraction (Float.ofBits 0x3af6cc0f827825f5))] }

/-- A note with an equals sign in a value. -/
def equation : Note :=
  { Note.ofPath "a.md" with metadata := [("status", .text "b=c")] }

theorem lower_longPath (count : Nat) :
    Text.lower (longPath count).path = "projects/" ++ String.ofList (List.replicate count 'a') := by
  apply Text.lower_of_isLow
  intro character member
  change character ∈ ("projects/" ++ String.ofList (List.replicate count 'a')).toList at member
  rw [String.toList_append, List.mem_append] at member
  rcases member with inStart | inRun
  · have low : Text.lower "projects/" = "projects/" := by decide +kernel
    rw [← low] at inStart
    exact Text.isLow_of_mem_lower inStart
  · rw [String.toList_ofList] at inRun
    rw [List.eq_of_mem_replicate inRun]
    decide +kernel

/-- A path that is too long for a term is not seen. -/
theorem longPath_isHidden {count : Nat} (long : largestValue ≤ count) :
    (startCriterion "projects/").selects (longPath count) = false := by
  have tooLong : largestValue < (Text.lower (longPath count).path).utf8ByteSize := by
    have start : "projects/".utf8ByteSize = 9 := by decide
    rw [lower_longPath, String.utf8ByteSize_append, Index.utf8ByteSize_replicate, start]
    omega
  exact Index.selects_pathLower_of_long tooLong _

theorem isViolated_longPath {count : Nat} (long : largestValue ≤ count) :
    IsViolated [noProjects] (longPath count) := by
  have starts : "projects/".toList.isPrefixOf (Text.lower (longPath count).path).toList = true := by
    rw [lower_longPath, String.toList_append]
    exact List.isPrefixOf_iff_prefix.mpr (List.prefix_append _ _)
  have notEmpty : (longPath count).path ≠ "" := by
    intro empty
    rw [empty] at starts
    revert starts
    decide +kernel
  have loadable : Index.Loadable (longPath count) := (by decide : 0 + 1 ≤ Index.nestingLimit)
  exact isViolated_of_hidden (isFiled_of_keys notEmpty List.nodup_nil nofun) loadable starts
    (longPath_isHidden long)

theorem edge_conditions_are_violated :
    IsViolated [noProjects] brokenPath ∧ IsViolated [noProjects] (longPath largestValue) ∧
      IsViolated [⟨.all, "data.priority", "1.1785830491279141e-24"⟩] fineNumber ∧
      IsViolated [⟨.all, "data.status=b", "c"⟩] equation := by
  refine ⟨?breaks, ?long, ?number, ?equals⟩
  case breaks =>
    exact isViolated_of_hidden (isFiled_of_keys (by decide) (by decide) (by decide)) (by decide)
      (by decide +kernel) (by decide +kernel)
  case long => exact isViolated_longPath le_rfl
  case number =>
    exact isViolated_of_selects (by decide +kernel)
      (isFiled_of_keys (by decide) (by decide) (by decide +kernel)) (by decide) rfl rfl
      (by decide +kernel) (by decide +kernel)
  case equals =>
    exact isViolated_of_selects (by decide +kernel)
      (isFiled_of_keys (by decide) (by decide) (by decide +kernel)) (by decide) rfl rfl
      (by decide +kernel) (by decide +kernel)

end Retriever

end Commonplace
