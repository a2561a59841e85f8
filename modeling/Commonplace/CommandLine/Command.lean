import Commonplace.CommandLine.Arguments

namespace Commonplace
namespace CommandLine

/-!
# Commands

What a call asks for, with all that was left out filled in.
-/

structure SearchArguments where
  text : String
  allOf : List String
  anyOf : List String
  noneOf : List String
  mode : SearchMode
  limit : Nat
  explains : Bool
  deriving Inhabited

inductive StoreCommand where
  | reindex (notebook : String)
  | find (query : String) (options : SearchOptions) (asJson : Bool)
  | search (arguments : SearchArguments) (asJson : Bool)
  | get (path : String) (asJson : Bool)
  | count (query : String)
  | stats (asJson : Bool)
  deriving Inhabited

inductive Command where
  | onStore (command : StoreCommand)
  | validate (query : String)
  | reference
  | completions (shell : Shell)
  deriving Inhabited

/-- A call: a command, and the data directory if one is given. -/
structure Call where
  dataDirectory : Option String
  command : Command
  deriving Inhabited

namespace Command

def countOr (reading : Reading) (name : String) (usual : Nat) : Nat :=
  ((reading.value? name).bind count?).getD usual

/-- The options of a search, without its query.  By relevance the best note always comes first. -/
def findOptions (reading : Reading) : SearchOptions :=
  let field := (reading.value? "sort").bind fun name =>
    SortField.all.find? fun field => field.name == name
  let field := field.getD .relevance
  { SearchOptions.empty with
    tags := reading.values "tag"
    excludedTags := reading.values "exclude-tag"
    pathStart := reading.value? "path"
    excludedPaths := reading.values "exclude-path"
    sortField := field
    sortDirection :=
      if field == .relevance || reading.has "desc" then .descending else .ascending
    limit := countOr reading "limit" SearchOptions.defaultLimit
    offset := countOr reading "offset" 0 }

def searchArguments (reading : Reading) : SearchArguments where
  text := reading.words.headD ""
  allOf := reading.values "and"
  anyOf := reading.values "or"
  noneOf := reading.values "not"
  mode := ((reading.value? "mode").bind fun text => (SearchMode.parse text).toOption).getD .hybrid
  limit := countOr reading "top-k" SearchOptions.defaultLimit
  explains := reading.has "explain"

def ofReading (reading : Reading) (name : CommandName) : Command :=
  let word := reading.words.headD ""
  let asJson := reading.has "json"
  match name with
  | .reindex => onStore (.reindex word)
  | .find => onStore (.find word (findOptions reading) asJson)
  | .search => onStore (.search (searchArguments reading) asJson)
  | .get => onStore (.get word asJson)
  | .count => onStore (.count word)
  | .stats => onStore (.stats asJson)
  | .validate => validate word
  | .completions => completions ((Shell.ofName? word).getD .bash)
  | .reference | .help => reference

end Command

def Call.read (arguments : List String) : Except Stop Call := do
  let reading <- readArguments arguments
  let name <- reading.finished
  return ⟨reading.commonValue? "data-dir", Command.ofReading reading name⟩

end CommandLine
end Commonplace
