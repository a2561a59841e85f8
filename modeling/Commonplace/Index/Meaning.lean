import Commonplace.Index.PatternEngine
import Commonplace.Note.Satisfies
import Commonplace.Search.Options

namespace Commonplace
namespace Index

/-!
# What queries and options ask of an index

A query becomes a criterion, at a given time, because some date texts depend on it.  Values are
compared in lower case, except for checksums.  A term counts most in the title and least in the
body.  A query has no criterion when a part of it means nothing, or when the engine refuses a
pattern in it.
-/

/-- The weight of a term in a text. -/
def TextSlot.weight : TextSlot -> Nat
  | title => 500
  | lead => 50
  | body => 1

/-- The criterion of the words of a text in a row.  Long words of the text are left out. -/
def wordsCriterion (slot : TextSlot) (value : String) (weight : Nat) : Criterion :=
  match stems value with
  | [] => .nothing
  | found => .phrase slot found weight

/-- The criterion of a term: it occurs in the title, the lead or the body. -/
def termCriterion (value : String) : Criterion :=
  .clauses [] ([TextSlot.title, .lead, .body].map fun slot =>
    wordsCriterion slot value slot.weight) []

def pathPattern (start : String) : TermPattern :=
  .startingWith (Text.lower start)

def dateSlot? : Field -> Option DateSlot
  | .created => some .created
  | .modified => some .modified
  | _ => none

def dateSlot (name value : String) : Except Fault DateSlot :=
  match dateSlot? (Field.ofName name) with
  | some slot => .ok slot
  | none => .error (.meaningless name value .notADate)

def dateCriterion (now : Time.Instant) (name : String) (comparison : Comparison)
    (value : String) : Except Fault Criterion := do
  let slot <- dateSlot name value
  let window <- Note.windowOf now name comparison value
  return .dated slot window

/-- The criterion of a date field between two date texts. -/
def rangeCriterion (now : Time.Instant) (name start stop : String) : Except Fault Criterion := do
  let slot <- dateSlot name start
  let window <- Note.rangeOf now name start stop
  return .dated slot window

/-- The criterion of a field that has a value, or, when negated, has none. -/
def presenceCriterion (name : String) (negated : Bool) : Criterion :=
  let present := Criterion.term .presence (Field.ofName name).presenceKey
  if negated then present.negation else present

/-- The criterion of a date between two optional ends, if one of them is given. -/
def betweenCriterion (slot : DateSlot) (start stop : Option Time.Instant) : List Criterion :=
  if start.isNone && stop.isNone then []
  else [.dated slot (.ofEnds start stop)]

section Engine

variable [PatternEngine]

def pathStartCriterion (start : String) : Except Fault Criterion :=
  compiled (.values .pathLower) (pathPattern start)

def patternCriterion (name : String) (field : Field) (shape : TermPattern) :
    Except Fault Criterion :=
  match field with
  | .title => compiled (.words .title) shape
  | .lead => compiled (.words .lead) shape
  | .body => compiled (.words .body) shape
  | .tags => compiled (.values .tags) shape
  | .path => compiled (.values .pathLower) shape
  | .checksum => compiled (.values .checksum) shape
  | .metadata key => compiled (.values .metadata) (.ofText (key ++ "=") ++ shape)
  | .created | .modified => .error (.meaningless name shape.written .patternForDate)

def equalityCriterion (field : Field) (value : String) : Except Fault Criterion :=
  let lower := Text.lower value
  match field with
  | .title => .ok (wordsCriterion .title value 1)
  | .lead => .ok (wordsCriterion .lead value 1)
  | .body => .ok (wordsCriterion .body value 1)
  | .tags => .ok (.term .tags lower)
  | .path =>
      if lower.toList.getLast? == some '/' then pathStartCriterion lower
      else .ok (.term .pathLower lower)
  | .checksum => .ok (.term .checksum value)
  | .metadata key => .ok (.term .metadata (metadataTerm key value))
  | .created | .modified => .ok .nothing

def fieldCriterion (now : Time.Instant) (name : String) (comparison : Comparison)
    (value : String) : Except Fault Criterion :=
  let field := Field.ofName name
  if field.isDate then dateCriterion now name comparison value
  else
    match comparison with
    | .equals => equalityCriterion field value
    | .startsWith => patternCriterion name field (.startingWith (Text.lower value))
    | .endsWith => patternCriterion name field (.endingWith (Text.lower value))
    | .greater | .atLeast | .less | .atMost => .error (.meaningless name value .orderOfText)

def wildcardCriterion (name pattern : String) (kind : WildcardKind) : Except Fault Criterion :=
  patternCriterion name (Note.patternField name)
    (.ofWildcard (kind.normalize (Text.lower pattern)))

mutual

/-- The criterion of an expression. -/
def criterion (now : Time.Instant) : Expr -> Except Fault Criterion
  | .term value => .ok (termCriterion value)
  | .field name comparison value => fieldCriterion now name comparison value
  | .not inner => do
      let inner <- criterion now inner
      return inner.negation
  | .or left right => do
      let left <- criterion now left
      let right <- criterion now right
      return left.disjunction right
  | .and expressions => do
      let required <- criteria now expressions
      return .conjunction required []
  | .date name comparison value => dateCriterion now name comparison value
  | .range name start stop => rangeCriterion now name start stop
  | .wildcard name pattern kind => wildcardCriterion name pattern kind
  | .exists name negated => .ok (presenceCriterion name negated)

def criteria (now : Time.Instant) : List Expr -> Except Fault (List Criterion)
  | [] => .ok []
  | expression :: rest => do
      let first <- criterion now expression
      let others <- criteria now rest
      return first :: others

end

def queryCriterion (now : Time.Instant) (query : Query) : Except Fault Criterion := do
  let required <- criteria now query.expressions
  return .conjunction required []

def optionsCriterion (now : Time.Instant) (options : SearchOptions) : Except Fault Criterion := do
  let asked <- (options.query.toList.filter fun query => !query.isEmpty).mapM (queryCriterion now)
  let starts <-
    (options.pathStart.toList.filter fun start => !start.isEmpty).mapM pathStartCriterion
  let excludedStarts <- options.excludedPaths.mapM pathStartCriterion
  let tag := fun (tag : String) => Criterion.term .tags (Text.lower tag)
  let required := asked ++ options.tags.map tag ++ starts ++
    betweenCriterion .created options.createdAfter options.createdBefore ++
    betweenCriterion .modified options.modifiedAfter options.modifiedBefore ++
    options.metadata.map fun entry => Criterion.term .metadata (metadataTerm entry.1 entry.2)
  return .conjunction required (options.excludedTags.map tag ++ excludedStarts)

end Engine

end Index
end Commonplace
