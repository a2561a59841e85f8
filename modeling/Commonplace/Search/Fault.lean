import Commonplace.Condition.Basic
import Commonplace.Glob.Fault
import Commonplace.Query.ParseError

namespace Commonplace

/-!
# Failures

Everything that can go wrong, by cause.  A failure of the index is wrapped with the operation it
happened in and the path it was about, unless the caller has to be able to tell it apart.
-/

/-- Why a query has no meaning for a note or an index. -/
inductive QueryFault where
  | orderOfText
  | unknownDate
  | noSuchWindow
  | lateDate
  | notADate
  | patternForDate
  | stated (text : String)
  deriving DecidableEq, Inhabited

/-- Why a query has no meaning, in words. -/
def QueryFault.message : QueryFault -> String
  | orderOfText => "comparison operators apply only to created and modified"
  | unknownDate => "unrecognized date"
  | noSuchWindow => "unsupported date operator"
  | lateDate => "date out of range"
  | notADate => "not a date field"
  | patternForDate => "wildcards do not apply to dates"
  | stated text => text

/-- A failure. -/
inductive Fault where
  | io (text : String)
  | backend (text : String)
  | parse (error : ParseError)
  | meaningless (field value : String) (fault : QueryFault)
  | closed
  | notFound (path : String)
  | corrupted (text : String)
  | locked (text : String)
  | condition (fault : ConditionFault)
  | semanticUnavailable
  | cancelled
  | config (text : String)
  | json (text : String)
  | frontmatter (text : String)
  | glob (error : GlobError)
  /-- A sum that does not fit a machine word.  It stops the program. -/
  | overflow
  | during (operation path : String) (cause : Fault)
  deriving DecidableEq, Inhabited

namespace Fault

def message : Fault -> String
  | io text => "I/O error: " ++ text
  | backend text => "search backend error: " ++ text
  | parse error => "invalid query: " ++ error.message
  | meaningless field value fault =>
      "cannot translate " ++ field ++ ":" ++ value ++ ": " ++ fault.message
  | closed => "index is closed"
  | notFound path => "document not found: " ++ path
  | corrupted text => "index is corrupted: " ++ text
  | locked text => "index is locked by another process: " ++ text
  | condition fault => "invalid condition: " ++ fault.message
  | semanticUnavailable => "semantic backend unavailable"
  | cancelled => "operation cancelled"
  | config text => "configuration error: " ++ text
  | json text => "JSON error: " ++ text
  | frontmatter text => "invalid frontmatter: " ++ text
  | glob error => "invalid glob pattern: " ++ error.message
  | overflow => "attempt to add with overflow"
  | during operation path cause =>
      operation ++ (if path.isEmpty then "" else " " ++ path) ++ ": " ++ cause.message

/-- Whether a failure is reported as it is, without the operation it happened in. -/
def staysBare : Fault -> Bool
  | closed | notFound _ | cancelled | parse _ | meaningless .. | condition _ => true
  | _ => false

def wrap (operation path : String) (fault : Fault) : Fault :=
  if fault.staysBare then fault else during operation path fault

/-- Whether the index stays usable after a failure. -/
def isRecoverable : Fault -> Bool
  | parse _ | meaningless .. | condition _ | closed | notFound _ | semanticUnavailable
  | cancelled => true
  | during _ _ cause => cause.isRecoverable
  | _ => false

/-- The failure under all wrappings. -/
def root : Fault -> Fault
  | during _ _ cause => cause.root
  | fault => fault

/-- The text of a lock that another writer holds. -/
def heldLock : String :=
  "Could not acquire lock as it is already held, possibly by a different process."

end Fault

end Commonplace
