import Commonplace.Search.Fault
import Commonplace.Text.LowerCase
import Commonplace.Text.Quoted

namespace Commonplace

/-!
# Search modes

A request is served by keywords, by similarity, or by both.
-/

inductive SearchMode where
  | hybrid
  | keyword
  | semantic
  deriving DecidableEq, Inhabited

namespace SearchMode

def name : SearchMode -> String
  | hybrid => "hybrid"
  | keyword => "keyword"
  | semantic => "semantic"

def all : List SearchMode :=
  [hybrid, keyword, semantic]

/-- Reads the name of a mode, in any case and with blanks around it. -/
def parse (text : String) : Except Fault SearchMode :=
  let name := Text.lower (Text.trim text)
  match all.find? fun mode => mode.name == name with
  | some mode => .ok mode
  | none =>
      .error (.config
        ("invalid mode " ++ Text.quoted text ++ " (allowed: hybrid, keyword, semantic)"))

end SearchMode

end Commonplace
