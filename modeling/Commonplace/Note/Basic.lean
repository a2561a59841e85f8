import Commonplace.Json.Printer
import Commonplace.Text.Blank
import Commonplace.Text.LowerCase
import Commonplace.Time.Written

namespace Commonplace

/-!
# Notes

A note has a path, which identifies it, some texts, tags, free metadata and two dates.  Tags are
kept as an ascending list without repetitions, metadata as a list with ascending, distinct keys.
-/

/-- A note. -/
structure Note where
  path : String
  title : String
  body : String
  lead : String
  tags : List String
  metadata : List (String × Json)
  created : Option Time.Instant
  modified : Option Time.Instant
  checksum : String
  deriving Inhabited

/-- Puts a text into an ascending list, unless it is there. -/
def insertAscending (text : String) : List String -> List String
  | [] => [text]
  | head :: tail =>
      if text < head then text :: head :: tail
      else if text == head then head :: tail
      else head :: insertAscending text tail

/-- Sets the value of a key in a list with ascending keys. -/
def setEntry {value : Type} (key : String) (entry : value) :
    List (String × value) -> List (String × value)
  | [] => [(key, entry)]
  | head :: tail =>
      if key < head.1 then (key, entry) :: head :: tail
      else if key == head.1 then (key, entry) :: tail
      else head :: setEntry key entry tail

/-- The value of a key. -/
def findEntry {value : Type} (key : String) (entries : List (String × value)) : Option value :=
  (entries.find? fun entry => entry.1 == key).map Prod.snd

namespace Note

def ofPath (path : String) : Note :=
  ⟨path, "", "", "", [], [], none, none, ""⟩

/-- A note with more tags, trimmed and in lower case. -/
def withTags (note : Note) (tags : List String) : Note :=
  { note with
    tags := tags.foldl (fun known tag => insertAscending (Text.lower (Text.trim tag)) known)
      note.tags }

def withMetadata (note : Note) (key : String) (value : Json) : Note :=
  { note with metadata := setEntry key value note.metadata }

end Note

mutual

/-- The texts in a metadata value.  Lists count with all their items; nulls, objects and blank
texts do not count. -/
def Json.flatten : Json -> List String
  | .null => []
  | .object _ => []
  | .text value => if Text.isBlankText value then [] else [Text.trim value]
  | .bool value => [if value then "true" else "false"]
  | .whole value => [toString value]
  | .fraction value => [Json.fractionText value]
  | .list items => Json.flattenItems items

def Json.flattenItems : List Json -> List String
  | [] => []
  | item :: rest => item.flatten ++ Json.flattenItems rest

end

def Note.metadataValues (note : Note) (key : String) : List String :=
  ((findEntry key note.metadata).map Json.flatten).getD []

end Commonplace
