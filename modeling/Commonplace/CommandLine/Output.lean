import Commonplace.Decimal.Rounded
import Commonplace.Index.Store
import Commonplace.Note.Structured
import Commonplace.Search.Retrieval

namespace Commonplace
namespace CommandLine

/-!
# Output

The results of commands, written for people or as structured values.
-/

/-- What a command writes and how it ends. -/
structure Outcome where
  code : Nat
  out : String
  err : String
  deriving DecidableEq, Inhabited

namespace Outcome

/-- A command that went well. -/
def success (out : String) : Outcome :=
  ⟨0, out, ""⟩

def failure (err : String) : Outcome :=
  ⟨1, "", err⟩

end Outcome

/-- Lines, each with its end. -/
def lines (texts : List String) : String :=
  String.join (texts.map fun text => text ++ "\n")

/-- A structured value, indented. -/
def jsonText (json : Json) : String :=
  json.indented 0 ++ "\n"

/-- A number at the right end of three columns. -/
def numbered (number : Nat) : String :=
  let digits := toString number
  "".pushn ' ' (3 - digits.length) ++ digits

def scoreText (score : Float) : String :=
  "[" ++ Decimal.fixed 3 score ++ "]"

/-- The line below a result that has a title. -/
def titleLines (note : Note) : List String :=
  if note.title.isEmpty then [] else ["     " ++ note.title]

namespace Output

/-- The results of a search for people. -/
def found (offset : Nat) (results : Index.Results) : String :=
  if results.hits.isEmpty then lines ["No results found."]
  else
    let shown := results.hits.zipIdx.flatMap fun (hit, position) =>
      (numbered (offset + position + 1) ++ ". " ++ scoreText hit.score.toFloat ++ " " ++
        hit.note.path) :: titleLines hit.note
    let count := toString results.hits.length
    let summary :=
      if results.hits.length < results.total then
        count ++ " of " ++ toString results.total ++ " result(s)"
      else count ++ " result(s)"
    lines (shown ++ ["", summary])

/-- The answer to a request for people. -/
def answered (response : SearchResponse) : String :=
  let shown := response.hits.zipIdx.flatMap fun (hit, position) =>
    (numbered (position + 1) ++ ". " ++ scoreText hit.score ++ " " ++ hit.note.path ++ " (" ++
      hit.matchType.label ++ ")") :: titleLines hit.note ++
      hit.explanation.toList.map fun reason => "     Why: " ++ reason
  lines (shown ++ ["", toString response.hits.length ++ " result(s)"])

/-- A metadata entry for people: texts as they are, other values in structured form. -/
def metadataLine (entry : String × Json) : String :=
  entry.1 ++ ": " ++
    match entry.2 with
    | .text text => text
    | other => other.compact

def note (note : Note) : String :=
  let dated := fun (name : String) (date : Option Time.Instant) =>
    date.toList.map fun instant => name ++ ": " ++ instant.text .offset
  lines (["Path: " ++ note.path] ++
    (if note.title.isEmpty then [] else ["Title: " ++ note.title]) ++
    (if note.tags.isEmpty then [] else ["Tags: " ++ ", ".intercalate note.tags]) ++
    dated "Created" note.created ++ dated "Modified" note.modified ++
    note.metadata.map metadataLine ++ ["", note.body])

/-- What is known of a store in a directory, for people. -/
def stats (directory : String) (size : Nat) (stats : Index.Stats) : String :=
  lines ["Status: " ++ stats.status.name, "Documents: " ++ toString stats.noteCount,
    "Index size: " ++ toString size ++ " bytes", "Index path: " ++ directory,
    "Last indexed: " ++ match stats.indexedAt with
      | some instant => instant.text .offset
      | none => "never (this session)"]

/-- What is known of a store in a directory, in structured form. -/
def statsJson (directory : String) (size : Nat) (stats : Index.Stats) : Json :=
  .object [("document_count", .whole stats.noteCount), ("index_size", .whole size),
    ("last_indexed", (stats.indexedAt.map fun instant => .text (instant.text .letter)).getD .null),
    ("index_path", .text directory),
    ("status", .text stats.status.name)]

def excerptJson (excerpt : Index.Excerpt) : Json :=
  .object [("field", .text "body"), ("text", .text excerpt.text),
    ("ranges", .list (excerpt.ranges.map fun range =>
      .object [("start", .whole range.1), ("end", .whole range.2)]))]

def foundJson (options : SearchOptions) (results : Index.Results) : Json :=
  .object [
    ("items", .list (results.hits.map fun hit => .object [
      ("document", hit.note.toJson .letter), ("score", .fraction hit.score.toFloat),
      ("snippets", .list (hit.excerpt.toList.map excerptJson))])),
    ("total", .whole results.total), ("query", options.toJson)]

/-- The answer to a request in structured form. -/
def answeredJson (response : SearchResponse) : Json :=
  .object [
    ("hits", .list (response.hits.map fun hit => .object ([
      ("document", hit.note.toJson .letter), ("match_type", .text hit.matchType.name),
      ("score", .fraction hit.score)] ++
      hit.explanation.toList.map fun reason => ("explanation", .text reason)))),
    ("meta", .object [("mode", .text response.mode.name),
      ("used_keyword", .bool response.usedKeyword),
      ("used_semantic", .bool response.usedSemantic),
      ("semantic_fallback", .bool response.fellBack)])]

end Output

end CommandLine
end Commonplace
