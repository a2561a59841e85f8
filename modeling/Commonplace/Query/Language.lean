namespace Commonplace

/-!
# The query language

The fields that a query text may name, and the help text about the language.
-/

/-- A field of the query language and what may be done with it. -/
structure FieldSpec where
  name : String
  description : String
  sample : String
  takesWildcard : Bool
  takesRange : Bool
  takesComparison : Bool

namespace QueryLanguage

def fields : List FieldSpec := [
  ⟨"tag", "Filter by tag", "tag:work", true, false, false⟩,
  ⟨"title", "Search in title", "title:meeting", true, false, false⟩,
  ⟨"path", "Filter by path", "path:projects/*", true, false, false⟩,
  ⟨"created", "Filter by creation date", "created:>2024-01-01", false, true, true⟩,
  ⟨"modified", "Filter by modification date", "modified:<2024-06-30", false, true, true⟩,
  ⟨"body", "Search in body only", "body:important", true, false, false⟩,
  ⟨"lead", "Search in the first paragraph", "lead:summary", true, false, false⟩,
  ⟨"status", "Filter by the frontmatter status field", "status:todo", true, false, false⟩]

/-- The names that may stand before a colon, beside the two words that ask for presence. -/
def fieldNames : List String :=
  ["tag", "tags", "title", "path", "created", "modified", "body", "lead", "status"]

/-- The fields whose values are dates. -/
def dateFieldNames : List String :=
  ["created", "modified"]

/-- The words that ask whether a field has a value. -/
def presenceWords : List String :=
  ["has", "missing"]

def help : String := "Query Syntax
============

Basic search:
  meeting               Notes containing \"meeting\"
  \"project plan\"        Notes containing the exact phrase

Field filters:
  tag:work              Notes tagged \"work\"
  title:meeting         \"meeting\" in the title
  path:projects/*       Notes under projects/
  body:important        Search only the body text
  lead:summary          Search only the first paragraph
  status:todo           Frontmatter status is \"todo\"

Dates:
  created:2024-01-01    Created on that day
  created:>2024-01-01   Created after that day
  modified:<=yesterday  Modified up to yesterday
  created:2024-01-01..2024-06-30
                        Created within the range (inclusive)
  Relative dates: today, yesterday, this-week, this-month

Wildcards:
  java*  *script  *log*  Prefix, suffix and contains matches

Existence:
  has:status            Notes with a status
  missing:tags          Notes without tags

Negation:
  -archived             Exclude notes containing \"archived\"
  -tag:done             Exclude notes tagged \"done\"

Combining:
  tag:work status:todo  Both must match (implicit AND)
  work OR home          Either matches; AND binds tighter than OR

Examples:
  tag:work title:meeting
  created:>2024-01-01 -archived
  \"project plan\" tag:urgent
"

end QueryLanguage

end Commonplace
