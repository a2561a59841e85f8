import Commonplace.Search.Mode
import Commonplace.Search.Options

namespace Commonplace
namespace CommandLine

/-!
# Arguments

The arguments of a call are a command, words and options.  Options may stand before the command,
if they concern all commands, and anywhere after it.  An option is written with two dashes and its
name, or with one dash and its letter; letters may share a dash.  After two dashes alone everything
is a word.

Arguments are read from left to right, and the first fault or request for help ends the reading.
-/

inductive ValueKind where
  | any
  | path
  | count
  | sortField
  | mode
  | shell
  | commandName
  deriving DecidableEq, Inhabited

inductive CommandName where
  | reindex
  | find
  | search
  | get
  | count
  | stats
  | validate
  | reference
  | completions
  | help
  deriving DecidableEq, Inhabited

def CommandName.name : CommandName -> String
  | reindex => "reindex"
  | find => "find"
  | search => "search"
  | get => "get"
  | count => "count"
  | stats => "stats"
  | validate => "validate"
  | reference => "syntax"
  | completions => "completions"
  | help => "help"

def CommandName.all : List CommandName :=
  [reindex, find, search, get, count, stats, validate, reference, completions, help]

def CommandName.ofName? (name : String) : Option CommandName :=
  all.find? fun command => command.name == name

/-- The shells for which completions are written. -/
inductive Shell where
  | bash
  | elvish
  | fish
  | powershell
  | zsh
  deriving DecidableEq, Inhabited

def Shell.name : Shell -> String
  | bash => "bash"
  | elvish => "elvish"
  | fish => "fish"
  | powershell => "powershell"
  | zsh => "zsh"

def Shell.ofName? (name : String) : Option Shell :=
  [bash, elvish, fish, powershell, zsh].find? fun shell => shell.name == name

def greatestCount : Nat :=
  Nat.pow 2 64 - 1

/-- Reads a count: digits, which may follow a plus sign. -/
def count? (text : String) : Option Nat :=
  let digits :=
    match text.toList with
    | '+' :: rest => rest
    | characters => characters
  if digits.isEmpty || !digits.all Char.isDigit then none
  else
    let value := digits.foldl (fun total digit => total * 10 + (digit.toNat - '0'.toNat)) 0
    if value ≤ greatestCount then some value else none

namespace ValueKind

def accepts (text : String) : ValueKind -> Bool
  | any => true
  | path => !text.isEmpty
  | count => (count? text).isSome
  | sortField => SortField.all.any fun field => field.name == text
  | mode => (SearchMode.parse text).toOption.isSome
  | shell => (Shell.ofName? text).isSome
  | commandName => (CommandName.ofName? text).isSome

end ValueKind

structure OptionSpec where
  name : String
  letter : Option Char
  /-- What its value has to be, if it takes one. -/
  value : Option ValueKind
  /-- Whether it may be given more than once. -/
  repeats : Bool
  deriving DecidableEq, Inhabited

namespace OptionSpec

def flag (name : String) (letter : Option Char) : OptionSpec :=
  ⟨name, letter, none, false⟩

def valued (name : String) (kind : ValueKind) : OptionSpec :=
  ⟨name, none, some kind, false⟩

/-- An option with a value that may be given more than once. -/
def repeated (name : String) : OptionSpec :=
  ⟨name, none, some .any, true⟩

def help : OptionSpec :=
  flag "help" (some 'h')

def common : List OptionSpec :=
  [valued "data-dir" .path, ⟨"verbose", some 'v', none, true⟩, flag "quiet" (some 'q'), help]

def ofCommand : CommandName -> List OptionSpec
  | .find =>
      [repeated "tag", repeated "exclude-tag", valued "path" .any, repeated "exclude-path",
        valued "sort" .sortField, flag "desc" none, ⟨"limit", some 'n', some .count, false⟩,
        valued "offset" .count, flag "json" none]
  | .search =>
      [valued "mode" .mode, valued "top-k" .count, flag "explain" none, repeated "and",
        repeated "or", repeated "not", flag "json" none]
  | .get | .stats => [flag "json" none]
  | .reindex | .count | .validate | .reference | .completions | .help => []

end OptionSpec

/-- The words that a command takes, and how many of them are needed. -/
def CommandName.words : CommandName -> List ValueKind × Nat
  | reindex => ([.path], 1)
  | find | search | count => ([.any], 0)
  | get | validate => ([.any], 1)
  | completions => ([.shell], 1)
  | help => ([.commandName], 0)
  | stats | reference => ([], 0)

/-- Why reading ends. -/
inductive Stop where
  | fault
  | help
  deriving DecidableEq, Inhabited

structure Reading where
  command : Option CommandName
  /-- The options given before the command, with their values. -/
  outer : List (String × String)
  /-- The options given at the present level. -/
  options : List (String × String)
  words : List String
  /-- An option whose value comes next. -/
  awaited : Option OptionSpec
  /-- Whether everything that follows is a word. -/
  onlyWords : Bool
  deriving Inhabited

namespace Reading

def start : Reading :=
  ⟨none, [], [], [], none, false⟩

/-- The options that may stand at the present level. -/
def specs (reading : Reading) : List OptionSpec :=
  (reading.command.map OptionSpec.ofCommand).getD [] ++ OptionSpec.common

def give (reading : Reading) (spec : OptionSpec) (value : String) : Except Stop Reading :=
  if !spec.repeats && (reading.options.any fun given => given.1 == spec.name) then .error .fault
  else if spec.value.any fun kind => !kind.accepts value then .error .fault
  else .ok { reading with options := reading.options ++ [(spec.name, value)], awaited := none }

/-- Meets an option; what was written behind it on the same argument is its value. -/
def meet (reading : Reading) (spec : OptionSpec) (attached : Option String) :
    Except Stop Reading :=
  if spec.value.isSome then
    match attached with
    | some value => reading.give spec value
    | none => .ok { reading with awaited := some spec }
  else if attached.isSome then .error .fault
  else if spec == .help then .error .help
  else reading.give spec ""

def word (reading : Reading) (text : String) : Except Stop Reading :=
  match reading.command with
  | none =>
      match CommandName.ofName? text with
      | some command =>
          if reading.onlyWords then .error .fault
          else .ok { reading with
            command := some command, outer := reading.options, options := [] }
      | none => .error .fault
  | some command =>
      match command.words.1[reading.words.length]? with
      | none => .error .fault
      | some kind =>
          if kind.accepts text then .ok { reading with words := reading.words ++ [text] }
          else .error .fault

def splitName (characters : List Char) : String × Option String :=
  match characters.dropWhile fun character => character != '=' with
  | _ :: value =>
      (String.ofList (characters.takeWhile fun character => character != '='),
        some (String.ofList value))
  | [] => (String.ofList characters, none)

def byName (reading : Reading) (characters : List Char) : Except Stop Reading :=
  let (name, attached) := splitName characters
  match reading.specs.find? fun spec => spec.name == name with
  | some spec => reading.meet spec attached
  | none => .error .fault

/-- Reads options by their letters.  Behind the letter of an option with a value stands the value,
which may follow an equals sign. -/
def byLetters (reading : Reading) : List Char -> Except Stop Reading
  | [] => .ok reading
  | letter :: rest =>
      match reading.specs.find? fun spec => spec.letter == some letter with
      | none => .error .fault
      | some spec =>
          if spec.value.isSome then
            let attached := if rest.head? == some '=' then rest.drop 1 else rest
            reading.meet spec (if rest.isEmpty then none else some (String.ofList attached))
          else do
            let reading <- reading.meet spec none
            byLetters reading rest

/-- Reads one argument.  Behind the command for help everything is a word. -/
def step (reading : Reading) (argument : String) : Except Stop Reading :=
  if reading.onlyWords || reading.command == some .help then reading.word argument
  else
    match argument.toList, reading.awaited with
    | '-' :: '-' :: [], none => .ok { reading with onlyWords := true }
    | '-' :: '-' :: name, none => reading.byName name
    | '-' :: letter :: letters, none => reading.byLetters (letter :: letters)
    | '-' :: _ :: _, some _ => .error .fault
    | _, some spec => reading.give spec argument
    | _, none => reading.word argument

/-- Checks that nothing is missing. -/
def finished (reading : Reading) : Except Stop CommandName :=
  match reading.command with
  | none => .error .fault
  | some .help => .error .help
  | some command =>
      if reading.awaited.isSome || reading.words.length < command.words.2 then .error .fault
      else .ok command

/-- The value of an option that is given at most once. -/
def value? (reading : Reading) (name : String) : Option String :=
  (reading.options.find? fun given => given.1 == name).map Prod.snd

def values (reading : Reading) (name : String) : List String :=
  (reading.options.filter fun given => given.1 == name).map Prod.snd

def has (reading : Reading) (name : String) : Bool :=
  (reading.value? name).isSome

/-- The value of an option that concerns all commands.  One that follows the command counts. -/
def commonValue? (reading : Reading) (name : String) : Option String :=
  (reading.value? name).or
    ((reading.outer.find? fun given => given.1 == name).map Prod.snd)

end Reading

def readArguments (arguments : List String) : Except Stop Reading :=
  arguments.foldlM Reading.step .start

end CommandLine
end Commonplace
