import Commonplace.Index.Results
import Commonplace.Search.Explanation
import Commonplace.Search.Mode

namespace Commonplace

/-!
# Retrieval

A request holds free text and conditions.  The keyword side looks for the text as one more
condition; the semantic side finds notes that are similar to the text and keeps those that satisfy
the conditions.  When both are asked for and there is no semantic backend, the keyword side answers
alone.
-/

structure SearchRequest where
  text : String
  conditions : Query
  mode : SearchMode
  /-- The number of hits asked for; zero stands for the usual number. -/
  limit : Nat
  explains : Bool

/-- A way to find similar notes, best first. -/
structure SemanticBackend where
  isAvailable : Bool
  similar : String -> Nat -> Except Fault (List Scored)

def SemanticBackend.missing : SemanticBackend :=
  ⟨false, fun _ _ => .error .semanticUnavailable⟩

/-- A note that answers a request. -/
structure SearchHit where
  note : Note
  matchType : MatchType
  score : Float
  explanation : Option String

/-- The answer to a request, and how it came about. -/
structure SearchResponse where
  hits : List SearchHit
  mode : SearchMode
  usedKeyword : Bool
  usedSemantic : Bool
  /-- The keyword side answered alone although both were asked for. -/
  fellBack : Bool

/-- What a request is answered from: a keyword index, a semantic backend and the constant by which
their results are fused. -/
structure Retriever where
  find : SearchOptions -> Except Fault Index.Results
  backend : SemanticBackend
  smoothing : Nat
  now : Time.Instant

namespace Retriever

/-- The number of hits that is applied. -/
def limitOf (request : SearchRequest) : Nat :=
  if request.limit == 0 then SearchOptions.defaultLimit else request.limit

/-- The query of the keyword side: the conditions, and the text as one term. -/
def keywordQuery (request : SearchRequest) : Query :=
  if Text.isBlankText request.text then request.conditions
  else request.conditions.andAlso (.term (Text.trim request.text))

/-- The options of the keyword side.  When nothing is asked for, all notes follow each other by
their paths. -/
def keywordOptions (request : SearchRequest) : SearchOptions :=
  let query := keywordQuery request
  let options := { SearchOptions.empty with query := some query, limit := limitOf request }
  if query.isEmpty then { options with sortField := .path, sortDirection := .ascending }
  else options

def keyword (retriever : Retriever) (request : SearchRequest) : Except Fault (List Scored) := do
  let results <- retriever.find (keywordOptions request)
  return results.hits.map fun hit => ⟨hit.note, hit.score⟩

def satisfying (now : Time.Instant) (conditions : Query) :
    List Scored -> Except Fault (List Scored)
  | [] => .ok []
  | candidate :: rest => do
      let keeps <- candidate.note.satisfiesQuery now conditions
      let others <- satisfying now conditions rest
      return if keeps then candidate :: others else others

def semantic (retriever : Retriever) (request : SearchRequest) : Except Fault (List Scored) := do
  if !retriever.backend.isAvailable then throw .semanticUnavailable
  let candidates <- retriever.backend.similar request.text (limitOf request)
  satisfying retriever.now request.conditions candidates

def singleHit (matchType : MatchType) (entry : Scored) : SearchHit :=
  ⟨entry.note, matchType, entry.score.toFloat, none⟩

/-- A hit of both sides. -/
def fusedHit (result : Fused Float) : SearchHit :=
  ⟨result.note, result.matchType, result.score, none⟩

def explained (request : SearchRequest) (hit : SearchHit) : SearchHit :=
  if request.explains then
    { hit with
      explanation := some (Explanation.explain hit.note request.text hit.matchType) }
  else hit

def byKeyword (retriever : Retriever) (request : SearchRequest) : Except Fault SearchResponse := do
  let found <- retriever.keyword request
  return ⟨found.map (singleHit .exact), .keyword, true, false, false⟩

def bySimilarity (retriever : Retriever) (request : SearchRequest) :
    Except Fault SearchResponse := do
  let found <- retriever.semantic request
  return ⟨found.map (singleHit .semantic), .semantic, false, true, false⟩

/-- Answers a request by both, or by keywords if there is no semantic backend. -/
def byBoth (retriever : Retriever) (request : SearchRequest) : Except Fault SearchResponse := do
  let found <- retriever.keyword request
  match retriever.semantic request with
  | .ok similar =>
      let merged <- Fusion.fuse doubleArithmetic retriever.smoothing found similar
      return ⟨(merged.take (limitOf request)).map fusedHit, .hybrid, true, true, false⟩
  | .error .semanticUnavailable =>
      return ⟨found.map (singleHit .exact), .hybrid, true, false, true⟩
  | .error fault => throw fault

/-- Answers a request. -/
def search (retriever : Retriever) (cancelled : Bool) (request : SearchRequest) :
    Except Fault SearchResponse := do
  if cancelled then throw .cancelled
  let response <-
    match request.mode with
    | .keyword => retriever.byKeyword request
    | .semantic => retriever.bySimilarity request
    | .hybrid => retriever.byBoth request
  return { response with hits := response.hits.map (explained request) }

end Retriever

end Commonplace
