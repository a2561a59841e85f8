import Commonplace.Note.Basic

namespace Commonplace

/-!
# Fields of notes

A name in a query stands for a field of the note itself or for a metadata key.  The presence key
of a field is the name under which a note lists the fields that have a value.
-/

inductive Field where
  | path
  | title
  | body
  | lead
  | tags
  | created
  | modified
  | checksum
  | metadata (key : String)
  deriving DecidableEq, Inhabited

namespace Field

def core : List Field :=
  [path, title, body, lead, tags, created, modified, checksum]

def coreName? (name : String) : Option Field :=
  if name == "path" || name == "p" then some path
  else if name == "title" || name == "t" then some title
  else if name == "body" || name == "content" || name == "b" then some body
  else if name == "lead" then some lead
  else if name == "tag" || name == "tags" then some tags
  else if name == "created" || name == "date" then some created
  else if name == "modified" || name == "updated" then some modified
  else if name == "checksum" then some checksum
  else none

/-- The parts that may stand before a metadata key. -/
def metadataMarks : List String :=
  ["metadata.", "meta.", "data."]

/-- A text without a part at its front, if it starts with that part. -/
def withoutMark? (mark : String) (text : String) : Option String :=
  if mark.toList.isPrefixOf text.toList then some (String.ofList (text.toList.drop mark.length))
  else none

/-- A metadata key without the mark in front of it. -/
def metadataKey (name : String) : String :=
  (metadataMarks.findSome? fun mark => withoutMark? mark name).getD name

def ofName (name : String) : Field :=
  let name := Text.lower (Text.trim name)
  match coreName? name with
  | some field => field
  | none =>
      let key := metadataKey name
      if key == "tag" || key == "tags" then tags else metadata key

def isDate : Field -> Bool
  | created | modified => true
  | _ => false

/-- Whether a field holds text that is searched word by word. -/
def isText : Field -> Bool
  | title | body | lead => true
  | _ => false

/-- The name under which a note lists the field as present. -/
def presenceKey : Field -> String
  | path => "path"
  | title => "title"
  | body => "body"
  | lead => "lead"
  | tags => "tags"
  | created => "created"
  | modified => "modified"
  | checksum => "checksum"
  | metadata key => "meta:" ++ key

end Field

namespace Note

/-- A text as a list of values: an empty text is no value. -/
def textValues (text : String) : List String :=
  if text.isEmpty then [] else [text]

def dateValues (date : Option Time.Instant) : List String :=
  (date.map fun instant => instant.text .offset).toList

def values (note : Note) : Field -> List String
  | .path => textValues note.path
  | .title => textValues note.title
  | .body => textValues note.body
  | .lead => textValues note.lead
  | .tags => note.tags
  | .created => dateValues note.created
  | .modified => dateValues note.modified
  | .checksum => textValues note.checksum
  | .metadata key => note.metadataValues key

def presentFields (note : Note) : List String :=
  let core := Field.core.filter fun field => !(note.values field).isEmpty
  let keys := note.metadata.filter fun entry => !entry.2.flatten.isEmpty
  core.map Field.presenceKey ++ keys.map fun entry => "meta:" ++ Text.lower entry.1

def date (note : Note) : Field -> Option Time.Instant
  | .created => note.created
  | .modified => note.modified
  | _ => none

end Note

end Commonplace
