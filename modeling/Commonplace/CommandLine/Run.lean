import Commonplace.CommandLine.Command
import Commonplace.CommandLine.Output
import Commonplace.Notebook.Source
import Commonplace.Query.Language
import Commonplace.Query.Parser

namespace Commonplace
namespace CommandLine

/-!
# Running commands

A command finds files and stores on the machine and may change both.  The store of a call lies in a
directory for data, which is made when it is missing, also when the command fails later.
-/

/-- What the environment says about directories. -/
structure Environment where
  /-- The directory for data, if it is set. -/
  dataDirectory : Option String
  /-- The directory for the data of all programs, if it is set. -/
  dataHome : Option String
  home : Option String
  deriving Inhabited

/-- What a command finds on the machine.  Stores are told apart by the place of their directory. -/
structure Machine where
  files : FileTree
  /-- The place from which paths start. -/
  here : List String
  stores : List (String × Index.Store)
  /-- The number of bytes that the store of the command takes. -/
  storeSize : Nat
  /-- The time. -/
  now : Time.Instant
  deriving Inhabited

structure OpenStore where
  /-- The directory as it is shown. -/
  directory : String
  /-- The name of its place. -/
  key : String
  store : Index.Store
  deriving Inhabited

/-- The handle through which commands use a store. -/
def handleName : String :=
  "command"

def programName : String :=
  "notesearch"

def below (path name : String) : String :=
  if path.isEmpty || path.toList.getLast? == some '/' then path ++ name else path ++ "/" ++ name

/-- The directory for the data of this program. -/
def dataRoot (environment : Environment) (given : Option String) : Except Fault String :=
  let shared := (environment.dataHome.filter FileTree.isAbsolute).or
    (environment.home.map fun home => below home ".local/share")
  match (given.or environment.dataDirectory).or
      (shared.map fun directory => below directory programName) with
  | some root => .ok root
  | none => .error (.config "could not determine XDG data home directory")

/-- Makes the directory for data. -/
def makeRoot (machine : Machine) (root : String) : Except Fault Machine :=
  match machine.files.makeDirectory machine.here root with
  | .ok (files, _) => .ok { machine with files := files }
  | .error fault =>
      .error (.config ("cannot create data directory " ++ root ++ ": " ++ fault.message))

/-- Makes the directory of the store and opens the store in it. -/
def openIn (machine : Machine) (root : String) : Except Fault (Machine × OpenStore) :=
  let directory := below root "index"
  match machine.files.makeDirectory machine.here directory with
  | .error fault => .error (.io fault.message)
  | .ok (files, place) =>
      let key := "/".intercalate place
      let store := ((findEntry key machine.stores).getD (.empty true)).open handleName
      .ok ({ machine with files := files }, ⟨directory, key, store⟩)

def reported (fault : Fault) : Outcome :=
  .failure ("error: " ++ fault.message ++ "\n")

def concluded (result : Except Fault Outcome) : Outcome :=
  match result with
  | .ok outcome => outcome
  | .error fault => reported fault

/-- Checks a query.  The place of a fault is shown below the query. -/
def validate (query : String) : Outcome :=
  match QueryLanguage.parse query with
  | .ok _ => .success (lines ["Query is valid."])
  | .error error =>
      .failure (lines [error.input, "".pushn ' ' (error.place.column - 1) ++ "^",
        "error: " ++ error.message])

variable [Index.PatternEngine]

def find (store : Index.Store) (now : Time.Instant) (query : String) (options : SearchOptions)
    (asJson : Bool) : Except Fault Outcome := do
  let query <- (QueryLanguage.parse query).mapError .parse
  let options := { options with query := some query }
  let results <- store.find handleName false now options
  return .success
    (if asJson then jsonText (Output.foundJson options results)
    else Output.found options.offset results)

/-- What is said when a request has no answer. -/
def nothingFound (arguments : SearchArguments) : String :=
  if arguments.mode == .keyword then
    "No keyword-mode results. Try --mode hybrid or --mode semantic."
  else if !Text.isBlankText arguments.text then
    "No notes found matching '" ++ Text.trim arguments.text ++ "'"
  else "No results found."

def answeredOutcome (arguments : SearchArguments) (asJson : Bool) (response : SearchResponse) :
    Outcome where
  code := 0
  out :=
    if asJson then jsonText (Output.answeredJson response)
    else if response.hits.isEmpty then lines [nothingFound arguments]
    else Output.answered response
  err :=
    if response.fellBack then
      lines ["Warning: semantic backend unavailable, showing keyword-mode results."]
    else ""

/-- Answers a request.  There is no semantic backend. -/
def search (store : Index.Store) (now : Time.Instant) (arguments : SearchArguments)
    (asJson : Bool) : Except Fault Outcome := do
  let conditions <-
    (Condition.parseAll arguments.allOf arguments.anyOf arguments.noneOf).mapError .condition
  let query <- (Condition.query conditions).mapError .condition
  let retriever : Retriever := ⟨store.find handleName false now, .missing, 0, now⟩
  match retriever.search false
      ⟨arguments.text, query, arguments.mode, arguments.limit, arguments.explains⟩ with
  | .ok response => return answeredOutcome arguments asJson response
  | .error .semanticUnavailable =>
      return .success
        (lines ["Semantic backend unavailable. Try --mode keyword or --mode hybrid."])
  | .error fault => throw fault

def get (store : Index.Store) (path : String) (asJson : Bool) : Except Fault Outcome := do
  let note <- store.get handleName false path
  return .success (if asJson then jsonText (note.toJson .letter) else Output.note note)

def count (store : Index.Store) (now : Time.Instant) (query : String) : Except Fault Outcome := do
  let query <- (QueryLanguage.parse query).mapError .parse
  let number <- store.count handleName false now { SearchOptions.empty with query := some query }
  return .success (lines [toString number])

def stats (opened : OpenStore) (size : Nat) (asJson : Bool) : Except Fault Outcome := do
  let stats <- opened.store.stats handleName false
  return .success
    (if asJson then jsonText (Output.statsJson opened.directory size stats)
    else Output.stats opened.directory size stats)

def leadsToDirectory (machine : Machine) (path : String) : Bool :=
  match machine.files.resolve machine.here path with
  | .ok place => (machine.files.at? place).any FileTree.isDirectory
  | .error _ => false

def reindex (machine : Machine) (store : Index.Store) (notebook : String) :
    Index.Store × Outcome :=
  if !leadsToDirectory machine notebook then
    (store, reported (.config ("notebook directory not found: " ++ notebook)))
  else
    let source := Notebook.load machine.files machine.here notebook machine.now false
    let (store, result) := store.reindex handleName false (some source) none machine.now
    let outcome : Except Fault Outcome := do
      result
      let stats <- store.stats handleName false
      return .success
        (lines ["Indexed " ++ toString stats.noteCount ++ " note(s) from " ++ notebook])
    (store, concluded outcome)

def runOnStore (machine : Machine) (opened : OpenStore) :
    StoreCommand -> Index.Store × Outcome
  | .reindex notebook => reindex machine opened.store notebook
  | .find query options asJson =>
      (opened.store, concluded (find opened.store machine.now query options asJson))
  | .search arguments asJson =>
      (opened.store, concluded (search opened.store machine.now arguments asJson))
  | .get path asJson => (opened.store, concluded (get opened.store path asJson))
  | .count query => (opened.store, concluded (count opened.store machine.now query))
  | .stats asJson => (opened.store, concluded (stats opened machine.storeSize asJson))

/-- Opens the store of a call and runs a command on it. -/
def runOpening (environment : Environment) (machine : Machine) (dataDirectory : Option String)
    (command : StoreCommand) : Machine × Outcome :=
  match dataRoot environment dataDirectory with
  | .error fault => (machine, reported fault)
  | .ok root =>
      match makeRoot machine root with
      | .error fault => (machine, reported fault)
      | .ok machine =>
          match openIn machine root with
          | .error fault => (machine, reported fault)
          | .ok (machine, opened) =>
              let (store, outcome) := runOnStore machine opened command
              ({ machine with stores := setEntry opened.key store machine.stores }, outcome)

def completionLine (shell : Shell) : String :=
  let names := CommandName.all.map CommandName.name
  let words := " ".intercalate names
  match shell with
  | .bash => "complete -W '" ++ words ++ "' " ++ programName
  | .elvish =>
      "set edit:completion:arg-completer[" ++ programName ++ "] = \x7b|@words| put " ++ words ++
        " \x7d"
  | .fish => "complete -c " ++ programName ++ " -f -a '" ++ words ++ "'"
  | .powershell =>
      "Register-ArgumentCompleter -Native -CommandName " ++ programName ++ " -ScriptBlock \x7b " ++
        ", ".intercalate (names.map fun name => "'" ++ name ++ "'") ++ " \x7d"
  | .zsh => "compctl -k '(" ++ words ++ ")' " ++ programName

def run (environment : Environment) (machine : Machine) (call : Call) : Machine × Outcome :=
  match call.command with
  | .reference => (machine, .success QueryLanguage.help)
  | .validate query => (machine, validate query)
  | .completions shell => (machine, .success (lines [completionLine shell]))
  | .onStore command => runOpening environment machine call.dataDirectory command

end CommandLine
end Commonplace
