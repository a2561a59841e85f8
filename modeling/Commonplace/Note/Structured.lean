import Commonplace.Note.Basic
import Commonplace.Query.Structured
import Commonplace.Search.Options

namespace Commonplace

/-!
# Notes and search options as structured values

Absent values are null.  The two forms of an instant differ in how the zone is written.
-/

/-- The structured form of an instant that may be absent. -/
def instantToJson (zone : Time.Zone) (instant : Option Time.Instant) : Json :=
  .ofText? (instant.map fun instant => instant.text zone)

def Note.toJson (note : Note) (zone : Time.Zone) : Json :=
  .object [("path", .text note.path), ("title", .text note.title), ("body", .text note.body),
    ("lead", .text note.lead), ("tags", .list (note.tags.map .text)),
    ("metadata", .object note.metadata), ("created", instantToJson zone note.created),
    ("modified", instantToJson zone note.modified), ("checksum", .text note.checksum)]

def SearchOptions.toJson (options : SearchOptions) : Json :=
  let texts := fun (values : List String) => Json.list (values.map .text)
  let instant := instantToJson .letter
  .object [("query", (options.query.map Query.toJson).getD .null),
    ("tags", texts options.tags), ("exclude_tags", texts options.excludedTags),
    ("path_prefix", .ofText? options.pathStart),
    ("exclude_paths", texts options.excludedPaths),
    ("created_after", instant options.createdAfter),
    ("created_before", instant options.createdBefore),
    ("modified_after", instant options.modifiedAfter),
    ("modified_before", instant options.modifiedBefore),
    ("metadata", .object (options.metadata.map fun entry => (entry.1, .text entry.2))),
    ("sort", .object [("field", .text options.sortField.name),
      ("direction", .text options.sortDirection.name)]),
    ("limit", .whole options.limit), ("offset", .whole options.offset)]

end Commonplace
