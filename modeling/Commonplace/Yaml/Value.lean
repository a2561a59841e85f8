import Commonplace.Decimal.Placed
import Commonplace.Json.Value
import Commonplace.Yaml.Node
import Commonplace.Yaml.Number

namespace Commonplace
namespace Yaml

/-!
# Values

What the nodes of a document mean.  Only plain scalars can be anything but text.  Aliases are
replaced by what they name, within limits on the depth and on the number of replacements.  No
mapping may have a key twice.
-/

inductive Value where
  | null
  | bool (value : Bool)
  | whole (value : Int)
  | fraction (value : Float)
  | text (value : String)
  | sequence (items : List Value)
  | mapping (entries : List (Value × Value))
  | tagged (tag : String) (value : Value)
  deriving Inhabited

namespace Value

/-- Whether two fractions are the same; what is not a number is the same as itself. -/
def sameFraction (first second : Float) : Bool :=
  first == second || (first.isNaN && second.isNaN)

mutual

/-- Whether two values are the same.  The entries of a mapping have no order. -/
def same : Value -> Value -> Bool
  | .null, .null => true
  | .bool first, .bool second => first == second
  | .whole first, .whole second => first == second
  | .fraction first, .fraction second => sameFraction first second
  | .text first, .text second => first == second
  | .sequence first, .sequence second => sameItems first second
  | .mapping first, .mapping second =>
      first.length == second.length && sameEntries second first
  | .tagged tag first, .tagged other second => tag == other && same first second
  | _, _ => false

def sameItems : List Value -> List Value -> Bool
  | [], [] => true
  | first :: firsts, second :: seconds => same first second && sameItems firsts seconds
  | _, _ => false

/-- Whether every entry is among some others. -/
def sameEntries (others : List (Value × Value)) : List (Value × Value) -> Bool
  | [] => true
  | (key, value) :: rest =>
      (others.any fun other => same key other.1 && same value other.2) && sameEntries others rest

end

end Value

def nullWords : List String :=
  ["null", "Null", "NULL", "~"]

/-- The truth value that a word stands for. -/
def boolOf (text : String) : Option Bool :=
  if ["true", "True", "TRUE"].contains text then some true
  else if ["false", "False", "FALSE"].contains text then some false
  else none

/-- The meaning of a plain scalar without a tag. -/
def plainValue (text : String) : Option Value :=
  if text.isEmpty || nullWords.contains text then some .null
  else
    match boolOf text with
    | some value => some (.bool value)
    | none =>
        match readWhole text.toList with
        | .value number => some (.whole number)
        | .tooLarge => none
        | .noNumber =>
            if hasIdleZero text.toList then some (.text text)
            else
              match readFraction text with
              | some value => some (.fraction value)
              | none => some (.text text)

/-- The meaning of a scalar with one of the standard tags; any other tag leaves a text. -/
def standardValue (tag text : String) : Option Value :=
  if tag == "tag:yaml.org,2002:bool" then (boolOf text).map .bool
  else if tag == "tag:yaml.org,2002:int" then
    match readWhole text.toList with
    | .value number => some (.whole number)
    | _ => none
  else if tag == "tag:yaml.org,2002:float" then (readFraction text).map .fraction
  else if tag == "tag:yaml.org,2002:null" then
    if nullWords.contains text then some .null else none
  else some (.text text)

/-- The name of a tag of a document's own, without its mark. -/
def ownTag? (tag : List Char) : Option String :=
  match tag with
  | ['!'] => some "!"
  | '!' :: rest => some (String.ofList rest)
  | _ => none

/-- The meaning of a scalar. -/
def scalarValue (tag : Option (List Char)) (text : List Char) (isPlain : Bool) : Option Value :=
  let text := String.ofList text
  let untagged := if isPlain then plainValue text else some (.text text)
  match tag with
  | none => untagged
  | some tag =>
      match ownTag? tag with
      | some name => untagged.map (.tagged name)
      | none => standardValue (String.ofList tag) text

/-- Wraps the meaning of a collection in its tag, if that is one of the document's own. -/
def wrapTag (tag : Option (List Char)) (value : Value) : Value :=
  match tag.bind ownTag? with
  | some name => .tagged name value
  | none => value

/-- The node that an alias stands for: of several with one number the last one. -/
def targetOf (anchored : List Anchored) (target : Nat) : Option Node :=
  let found := anchored.foldl (fun (best : Option Anchored) candidate =>
    if candidate.target != target then best
    else
      match best with
      | some known => if known.position < candidate.position then some candidate else best
      | none => some candidate) none
  found.map Anchored.node

def distinctKeys : List (Value × Value) -> Bool
  | [] => true
  | entry :: rest => !(rest.any fun other => entry.1.same other.1) && distinctKeys rest

/-- The meaning of a node.  `depth` bounds how deep collections may be nested; the state holds the
number of aliases that may still be replaced. -/
def valueOf (anchored : List Anchored) : Nat -> Nat -> Node -> StateT Nat Option Value
  | 0, _, _ => failure
  | budget + 1, depth, node =>
      match node with
      | .alias target => do
          let remaining <- get
          match remaining, targetOf anchored target with
          | remaining + 1, some node =>
              set remaining
              valueOf anchored budget depth node
          | _, _ => failure
      | .scalar tag text isPlain => StateT.lift (scalarValue tag text isPlain)
      | .sequence tag items =>
          match depth with
          | 0 => failure
          | depth + 1 => do
              let values <- items.mapM (valueOf anchored budget depth)
              return wrapTag tag (.sequence values)
      | .mapping tag entries =>
          match depth with
          | 0 => failure
          | depth + 1 => do
              let values <- entries.mapM fun entry => do
                let key <- valueOf anchored budget depth entry.1
                let value <- valueOf anchored budget depth entry.2
                return (key, value)
              if distinctKeys values then return wrapTag tag (.mapping values) else failure

/-- The greatest depth of nested collections. -/
def depthLimit : Nat :=
  128

def read? (text : String) : Option Value := do
  let tokens <- tokensOf text.toList
  let document <- documentOf tokens
  let (value, _) <-
    (valueOf document.anchored (2 * depthLimit + 4) depthLimit document.root).run
      (document.events * 100)
  some value

namespace Value

def fractionText (value : Float) : String :=
  if value.isNaN then ".nan"
  else if value.isInf then (if value < 0.0 then "-.inf" else ".inf")
  else Decimal.placed .whenNegative value

/-- The text of a value that is a single text, number or truth value. -/
def scalarText? : Value -> Option String
  | .text value => some value
  | .whole value => some (toString value)
  | .fraction value => some (fractionText value)
  | .bool value => some (if value then "true" else "false")
  | _ => none

/-- The text of a value that is a text, under any tags. -/
def text? : Value -> Option String
  | .text value => some value
  | .tagged _ value => value.text?
  | _ => none

def isNull : Value -> Bool
  | .null => true
  | .tagged _ value => value.isNull
  | _ => false

/-- The name of a field for a key: texts, numbers and truth values have one. -/
def fieldName? : Value -> Option String
  | .text value => some value
  | .whole value => some (toString value)
  | .bool value => some (if value then "true" else "false")
  | .fraction value =>
      if value.isNaN || value.isInf then none else some (Decimal.placed .always value)
  | _ => none

/-- Sets a field of an object; a field that is there keeps its place. -/
def setField (name : String) (value : Json) : List (String × Json) -> List (String × Json)
  | [] => [(name, value)]
  | field :: rest =>
      if field.1 == name then (name, value) :: rest else field :: setField name value rest

mutual

/-- The structured form of a value.  A number that is not finite becomes null, a tag becomes an
object with one field.  A key that has no name leaves no structured form. -/
def toJson? : Value -> Option Json
  | .null => some .null
  | .bool value => some (.bool value)
  | .whole value => some (.whole value)
  | .fraction value =>
      some (if value.isNaN || value.isInf then .null else .fraction value)
  | .text value => some (.text value)
  | .sequence items => (itemsToJson? items).map .list
  | .mapping entries => (entriesToJson? [] entries).map .object
  | .tagged tag value => value.toJson?.map fun value => .object [("!" ++ tag, value)]

/-- The structured forms of some values. -/
def itemsToJson? : List Value -> Option (List Json)
  | [] => some []
  | item :: rest => do
      let item <- item.toJson?
      let rest <- itemsToJson? rest
      some (item :: rest)

/-- The fields for some entries.  Of two entries whose keys have one name the last counts. -/
def entriesToJson? (fields : List (String × Json)) :
    List (Value × Value) -> Option (List (String × Json))
  | [] => some fields
  | (key, value) :: rest => do
      let name <- key.fieldName?
      let value <- value.toJson?
      entriesToJson? (setField name value fields) rest

end

end Value

end Yaml
end Commonplace
