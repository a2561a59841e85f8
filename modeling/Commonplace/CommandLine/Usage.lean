import Commonplace.CommandLine.Run

namespace Commonplace
namespace CommandLine

/-!
# Usage

How the program is called, and what it says to a call that it cannot read.
-/

def CommandName.summary : CommandName -> String
  | reindex => "Rebuild the index from a notebook directory"
  | find => "Find notes with a query"
  | search => "Keyword, semantic or hybrid search with field conditions"
  | get => "Show one indexed note"
  | count => "Count the notes that match a query"
  | stats => "Show what is known of the index"
  | validate => "Check a query"
  | reference => "Print the reference of the query language"
  | completions => "Write a completion line for a shell"
  | help => "Show this text"

def OptionSpec.written (spec : OptionSpec) : String :=
  (spec.letter.elim "" fun letter => "-" ++ String.singleton letter ++ ", ") ++ "--" ++ spec.name ++
    if spec.value.isSome then " VALUE" else ""

/-- The options in one line, unless there are none. -/
def optionLines (specs : List OptionSpec) : List String :=
  if specs.isEmpty then [] else ["      " ++ "  ".intercalate (specs.map OptionSpec.written)]

def CommandName.usageLines (command : CommandName) : List String :=
  ("  " ++ command.name ++ ": " ++ command.summary) :: optionLines (OptionSpec.ofCommand command)

def usage : String :=
  lines (["Usage: " ++ programName ++ " [OPTIONS] COMMAND", "", "Commands:"] ++
    CommandName.all.flatMap CommandName.usageLines ++ ["", "Options:"] ++
    optionLines OptionSpec.common)

/-- The outcome of a call that ends before a command runs. -/
def Stop.outcome : Stop -> Outcome
  | help => .success usage
  | fault => ⟨2, "", "error: the arguments cannot be read\n\n" ++ usage⟩

end CommandLine
end Commonplace
