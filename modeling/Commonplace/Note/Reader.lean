import Commonplace.Note.Basic
import Commonplace.Note.Frontmatter
import Commonplace.Time.Reference

namespace Commonplace

/-!
# Reading notes

How the text of a file becomes a note.  The title comes from the header, or from the first
heading, or from the name of the file.  Entries of the header that say something about the note
itself are not kept as metadata.
-/

/-- The last part of a path that names something, if the path does not end above it. -/
def fileName? (path : String) : Option String :=
  let parts := (path.toList.splitOn '/').filter fun part => !part.isEmpty && part != ['.']
  match parts.getLast? with
  | none => none
  | some part => if part == ['.', '.'] then none else some (String.ofList part)

/-- A name without what follows its last dot.  A dot at the start begins no ending. -/
def stem (name : String) : String :=
  let reversed := name.toList.reverse
  let before := (reversed.dropWhile fun character => character != '.').drop 1
  if before.isEmpty then name else String.ofList before.reverse

/-- The name of the file at a path without its ending. -/
def fileStem (path : String) : String :=
  ((fileName? path).map stem).getD "untitled"

namespace Note

/-- The keys of a header that are not kept as metadata. -/
def reservedKeys : List String :=
  ["title", "tags", "tag", "created", "date", "modified", "updated"]

def headingOf (line : List Char) : Option (List Char) :=
  match Text.trimChars line with
  | '#' :: ' ' :: rest => some (Text.trimChars rest)
  | _ => none

/-- The first heading of a body that is not blank. -/
def firstHeading (body : List Char) : Option (List Char) :=
  ((Text.lines body).filterMap headingOf).find? fun heading => !heading.isEmpty

/-- The tags in a text: its parts between commas, without blanks around them and without the
number signs in front. -/
def tagsInText (text : String) : List String :=
  let parts := text.toList.splitOn ','
  let tags := parts.map fun part =>
    (Text.trimChars part).dropWhile fun character => character == '#'
  (tags.filter fun tag => !tag.isEmpty).map String.ofList

mutual

/-- The tags in a value of a header: those of a text, or of all items of a list. -/
def tagsIn : Yaml.Value -> List String
  | .sequence items => tagsInItems items
  | value => (value.scalarText?.map tagsInText).getD []

def tagsInItems : List Yaml.Value -> List String
  | [] => []
  | item :: rest => tagsIn item ++ tagsInItems rest

end

/-- The first date under one of some keys that can be understood. -/
def dateUnder (entries : List (Yaml.Value × Yaml.Value)) (now : Time.Instant)
    (keys : List String) : Option Time.Instant :=
  keys.findSome? fun key =>
    (Frontmatter.text? entries key).bind fun text =>
      (Time.reference? text now).map Time.Reference.start

def titleOf (entries : List (Yaml.Value × Yaml.Value)) (body : List Char) (path : String) :
    String :=
  let stated := (Frontmatter.text? entries "title").filter fun text => !Text.isBlankText text
  Text.trim
    ((stated.or ((firstHeading body).map String.ofList)).getD (fileStem path))

/-- Adds an entry of a header to the metadata of a note, under its key in lower case. -/
def withEntry (note : Note) (entry : Yaml.Value × Yaml.Value) : Note :=
  match entry.1.text? with
  | none => note
  | some key =>
      let key := Text.lower key
      if reservedKeys.contains key then note
      else
        match entry.2.toJson? with
        | some value => note.withMetadata key value
        | none => note

/-- The note for the text of a file.  `fileTime` is when the file was last changed. -/
def read (path content : String) (fileTime : Option Time.Instant) (now : Time.Instant) : Note :=
  let (header, body) := Frontmatter.split content.toList
  let entries := (header.map Frontmatter.entries).getD []
  let tags := ["tags", "tag"].flatMap fun key =>
    ((Frontmatter.get? entries key).map tagsIn).getD []
  let note : Note := { ofPath path with
    title := titleOf entries body path
    body := String.ofList body
    lead := String.ofList (Text.collapseChars (Text.firstParagraphChars body))
    created := dateUnder entries now ["created", "date"]
    modified := (dateUnder entries now ["modified", "updated"]).or fileTime }
  entries.foldl withEntry (note.withTags tags)

end Note

end Commonplace
