import Commonplace.Glob.Reader
import Commonplace.Note.Field
import Commonplace.Search.Fault
import Commonplace.Text.Alphanumeric
import Commonplace.Time.Window

namespace Commonplace
namespace Note

/-!
# Queries about one note

Whether a note satisfies a query, judged on the note alone.  Texts are compared in lower case and a
term is any part of a text, so this is a plainer reading of a query than that of an index.  Parts
of a query that do not decide the answer any more are not looked at, so their faults do not show.
-/

def occursIn (part : List Char) : List Char -> Bool
  | [] => part.isEmpty
  | head :: tail => part.isPrefixOf (head :: tail) || occursIn part tail

/-- The window that a comparison with a date text selects. -/
def windowOf (now : Time.Instant) (name : String) (comparison : Comparison) (value : String) :
    Except Fault Time.Window :=
  match Time.reference? value now with
  | none => .error (.meaningless name value .unknownDate)
  | some reference =>
      match Time.Window.ofReference? comparison reference with
      | none => .error (.meaningless name value .noSuchWindow)
      | some window => .ok window

/-- The instant that an end of a range names. -/
def instantOf (now : Time.Instant) (name value : String) : Except Fault Time.Instant :=
  match Time.reference? value now with
  | none => .error (.meaningless name value .unknownDate)
  | some reference => .ok reference.start

def rangeOf (now : Time.Instant) (name start stop : String) : Except Fault Time.Window := do
  let first <- instantOf now name start
  let last <- instantOf now name stop
  match Time.Window.throughDay? first last with
  | none => .error (.meaningless name stop .lateDate)
  | some window => .ok window

def dateWithin (note : Note) (name value : String) (window : Time.Window) : Except Fault Bool :=
  let field := Field.ofName name
  if field.isDate then .ok ((note.date field).any window.contains)
  else .error (.meaningless name value .notADate)

/-- Whether a date field compares with a date text as asked. -/
def satisfiesDate (note : Note) (now : Time.Instant) (name : String) (comparison : Comparison)
    (value : String) : Except Fault Bool := do
  let window <- windowOf now name comparison value
  note.dateWithin name value window

/-- Whether a value of a field compares with a text as asked; both are in lower case. -/
def compares (field : Field) (comparison : Comparison) (needle value : List Char) : Bool :=
  match comparison with
  | .equals =>
      if field.isText then occursIn needle value
      else if field == .path && needle.getLast? == some '/' then needle.isPrefixOf value
      else value == needle
  | .startsWith => needle.isPrefixOf value
  | .endsWith => needle.isSuffixOf value
  | .greater | .atLeast | .less | .atMost => false

/-- Whether a field compares with a value as asked. -/
def satisfiesField (note : Note) (now : Time.Instant) (name : String) (comparison : Comparison)
    (value : String) : Except Fault Bool :=
  let field := Field.ofName name
  if field.isDate then note.satisfiesDate now name comparison value
  else if comparison.isOrdering then .error (.meaningless name value .orderOfText)
  else
    let needle := (Text.lower (Text.trim value)).toList
    .ok ((note.values field).any fun value =>
      compares field comparison needle (Text.lower value).toList)

/-- The field that a pattern is meant for: the body, unless a name is given. -/
def patternField (name : String) : Field :=
  if name.isEmpty then .body else Field.ofName name

/-- Whether a field matches a pattern with stars.  Texts are matched word by word. -/
def satisfiesWildcard (note : Note) (name pattern : String) (kind : WildcardKind) :
    Except Fault Bool :=
  let field := patternField name
  if field.isDate then .error (.meaningless name pattern .patternForDate)
  else
    match Glob.read (kind.normalize pattern) with
    | .error error => .error (.glob error)
    | .ok parts =>
        let values := note.values field
        if field.isText then
          .ok (values.any fun value =>
            (Text.runs Text.isAlphanumeric value.toList).any fun word =>
              Glob.matchesText parts (String.ofList word))
        else .ok (values.any (Glob.matchesText parts))

/-- Whether a field has a value, or, when negated, has none. -/
def satisfiesPresence (note : Note) (name : String) (negated : Bool) : Bool :=
  note.presentFields.contains (Field.ofName name).presenceKey != negated

/-- Whether a term occurs in the title, the lead or the body. -/
def satisfiesTerm (note : Note) (value : String) : Bool :=
  let needle := (Text.lower value).toList
  [note.title, note.lead, note.body].any fun text => occursIn needle (Text.lower text).toList

mutual

def satisfies (note : Note) (now : Time.Instant) : Expr -> Except Fault Bool
  | .term value => .ok (note.satisfiesTerm value)
  | .field name comparison value => note.satisfiesField now name comparison value
  | .not inner => do
      let result <- note.satisfies now inner
      return !result
  | .or left right => do
      let result <- note.satisfies now left
      if result then return true else note.satisfies now right
  | .and expressions => note.satisfiesAll now expressions
  | .date name comparison value => note.satisfiesDate now name comparison value
  | .range name start stop => do
      let window <- rangeOf now name start stop
      note.dateWithin name stop window
  | .wildcard name pattern kind => note.satisfiesWildcard name pattern kind
  | .exists name negated => .ok (note.satisfiesPresence name negated)

/-- Whether a note satisfies all of some expressions; the first one that fails decides. -/
def satisfiesAll (note : Note) (now : Time.Instant) : List Expr -> Except Fault Bool
  | [] => .ok true
  | expression :: rest => do
      let result <- note.satisfies now expression
      if result then note.satisfiesAll now rest else return false

end

/-- Whether a note satisfies a query at a given time. -/
def satisfiesQuery (note : Note) (now : Time.Instant) (query : Query) : Except Fault Bool :=
  note.satisfiesAll now query.expressions

end Note
end Commonplace
