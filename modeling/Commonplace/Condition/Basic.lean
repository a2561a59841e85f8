import Commonplace.Query.Expr
import Commonplace.Text.Blank

namespace Commonplace

/-!
# Conditions

A condition is an equation of a field and a value, given as a flag of one of three kinds: all
conditions of the first kind have to hold, at least one of the second, and none of the third.
Reading a list of flags is all or nothing.
-/

inductive ConditionKind where
  | all
  | any
  | none
  deriving DecidableEq, Inhabited

def ConditionKind.name : ConditionKind -> String
  | all => "and"
  | any => "or"
  | none => "not"

/-- An equation of a field and a value. -/
structure Condition where
  kind : ConditionKind
  field : String
  value : String
  deriving DecidableEq, Inhabited

inductive ConditionFault where
  | noEquation (flag : String)
  | unknownField (field : String)
  | longValue
  | emptyValue (field : String)
  | linkField (field : String)
  | unsupportedField (field : String)
  | stated (text : String)
  deriving DecidableEq, Inhabited

namespace Condition

def allowedFields : List String :=
  ["data.tag", "data.tags", "data.status", "data.priority", "data.assignee", "data.author",
    "data.type", "data.category", "data.project", "data.sprint", "path", "title", "links-to",
    "linked-by"]

/-- The largest size of a value, in bytes. -/
def valueLimit : Nat :=
  1000

end Condition

def ConditionFault.message : ConditionFault -> String
  | noEquation flag => flag ++ " (expected field=value)"
  | unknownField field =>
      "unknown field " ++ field ++ " (allowed: " ++ ", ".intercalate Condition.allowedFields ++ ")"
  | longValue => "value too long (max " ++ toString Condition.valueLimit ++ " chars)"
  | emptyValue field => "value cannot be empty for field " ++ field
  | linkField field =>
      "link queries are not yet supported: " ++ field ++
        " needs a link graph index (supported: data.*, path, title)"
  | unsupportedField field =>
      "unsupported field " ++ field ++ " (allowed: data.*, path, title)"
  | stated text => text

namespace Condition

/-- The two sides of the first equals sign. -/
def splitEquation : List Char -> Option (List Char × List Char)
  | [] => none
  | '=' :: rest => some ([], rest)
  | character :: rest =>
      (splitEquation rest).map fun sides => (character :: sides.1, sides.2)

/-- Reads one flag. -/
def parse (kind : ConditionKind) (flag : String) : Except ConditionFault Condition :=
  match splitEquation flag.toList with
  | none => .error (.noEquation flag)
  | some sides =>
      let field := String.ofList (Text.trimChars sides.1)
      let value := String.ofList (Text.trimChars sides.2)
      if !allowedFields.contains field then .error (.unknownField field)
      else if valueLimit < value.utf8ByteSize then .error .longValue
      else if value.isEmpty then .error (.emptyValue field)
      else .ok ⟨kind, field, value⟩

/-- Reads the flags of all three kinds.  The first bad flag fails the whole list. -/
def parseAll (all any none : List String) : Except ConditionFault (List Condition) := do
  let all <- all.mapM (parse .all)
  let any <- any.mapM (parse .any)
  let none <- none.mapM (parse .none)
  return all ++ any ++ none

/-- Whether a character stands for other characters in a path condition. -/
def isStandIn (character : Char) : Bool :=
  character == '*' || character == '?'

/-- The directory of a value that is a directory followed by one star. -/
def directoryOf? (value : List Char) : Option (List Char) :=
  match value.reverse with
  | '*' :: '/' :: rest =>
      let directory := ('/' :: rest).reverse
      if directory.any isStandIn then none else some directory
  | _ => none

/-- The expression for a condition on the path.  A directory selects what is in it, with or
without a star after it; any other value with stars or question marks is a pattern. -/
def pathExpr (value : String) : Expr :=
  let characters := value.toList
  if !characters.any isStandIn then
    .field "path" (if characters.getLast? == some '/' then .startsWith else .equals) value
  else
    match directoryOf? characters with
    | some directory => .field "path" .startsWith (String.ofList directory)
    | none => .wildcardOf "path" value

def dataKey? (field : String) : Option String :=
  if "data.".toList.isPrefixOf field.toList then
    let key := String.ofList (field.toList.drop 5)
    some (if key == "tags" then "tag" else key)
  else none

def expr (condition : Condition) : Except ConditionFault Expr :=
  match dataKey? condition.field with
  | some key => .ok (.field ("metadata." ++ key) .equals condition.value)
  | none =>
      if condition.field == "path" then .ok (pathExpr condition.value)
      else if condition.field == "title" then .ok (.field "title" .equals condition.value)
      else if condition.field == "links-to" || condition.field == "linked-by" then
        .error (.linkField condition.field)
      else .error (.unsupportedField condition.field)

/-- The alternatives of a list of expressions, joined from the left. -/
def alternatives : List Expr -> List Expr
  | [] => []
  | first :: rest => [rest.foldl .or first]

def ofKind (kind : ConditionKind) (pairs : List (Condition × Expr)) : List Expr :=
  (pairs.filter fun pair => pair.1.kind == kind).map Prod.snd

def query (conditions : List Condition) : Except ConditionFault Query := do
  let pairs <- conditions.mapM fun condition =>
    condition.expr.map fun expression => (condition, expression)
  return .ofExpressions
    (ofKind .all pairs ++ alternatives (ofKind .any pairs) ++ (ofKind .none pairs).map .not)

end Condition
end Commonplace
