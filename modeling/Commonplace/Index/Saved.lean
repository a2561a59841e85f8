import Commonplace.Index.Store
import Commonplace.Json.Reader

namespace Commonplace
namespace Index

/-!
# Saved stores

The text under which a store lies on disk: one structured value with the number of the last commit
and the contents of the index.  Instants are written as their seconds and nanoseconds, so that all
of them can be read again.  A text that is no saved store means that the store is damaged.
-/

namespace Saved

def instantToJson : Option Time.Instant -> Json
  | none => .null
  | some instant => .list [.whole instant.seconds, .whole instant.nanoseconds]

def instantOfJson? : Json -> Option (Option Time.Instant)
  | .null => some none
  | .list [.whole seconds, .whole (.ofNat nanoseconds)] => some (some ⟨seconds, nanoseconds⟩)
  | _ => none

theorem instantOfJson?_instantToJson (instant : Option Time.Instant) :
    instantOfJson? (instantToJson instant) = some instant := by
  cases instant <;> rfl

def noteToJson (note : Note) : Json :=
  .object [("path", .text note.path), ("title", .text note.title), ("body", .text note.body),
    ("lead", .text note.lead), ("tags", .list (note.tags.map .text)),
    ("metadata", .object note.metadata), ("created", instantToJson note.created),
    ("modified", instantToJson note.modified), ("checksum", .text note.checksum)]

def noteOfJson? : Json -> Option Note
  | .object [("path", .text path), ("title", .text title), ("body", .text body),
      ("lead", .text lead), ("tags", .list tags), ("metadata", .object metadata),
      ("created", created), ("modified", modified), ("checksum", .text checksum)] => do
    return ⟨path, title, body, lead, <- tags.mapM Json.text?, metadata,
      <- instantOfJson? created, <- instantOfJson? modified, checksum⟩
  | _ => none

theorem mapM_text?_text (texts : List String) :
    texts.mapM (Json.text? ∘ Json.text) = some texts := by
  induction texts with
  | nil => rfl
  | cons head tail kept => simp [kept, Json.text?]

theorem noteOfJson?_noteToJson (note : Note) : noteOfJson? (noteToJson note) = some note := by
  simp [noteOfJson?, noteToJson, mapM_text?_text, instantOfJson?_instantToJson]

theorem mapM_noteOfJson?_noteToJson (notes : List Note) :
    notes.mapM (noteOfJson? ∘ noteToJson) = some notes := by
  induction notes with
  | nil => rfl
  | cons head tail kept => simp [kept, noteOfJson?_noteToJson]

end Saved

namespace Store

/-- What of a store is saved. -/
def toJson (store : Store) : Json :=
  .object [("number", .whole store.number),
    ("notes", .list (store.committed.notes.map Saved.noteToJson)),
    ("counted", .list (store.committed.counted.map Saved.noteToJson))]

/-- The store that was saved.  No handle is open. -/
def ofJson? : Json -> Option Store
  | .object [("number", .whole (.ofNat number)), ("notes", .list notes),
      ("counted", .list counted)] => do
      let contents : Contents :=
        ⟨<- notes.mapM Saved.noteOfJson?, <- counted.mapM Saved.noteOfJson?⟩
      return { Store.empty true with committed := contents, number := number }
  | _ => none

/-- What is saved is all that outlives the handles of a store on disk. -/
theorem ofJson?_toJson (store : Store) :
    ofJson? store.toJson =
      some { Store.empty true with committed := store.committed, number := store.number } := by
  change ((store.committed.notes.map Saved.noteToJson).mapM Saved.noteOfJson?).bind (fun notes =>
    ((store.committed.counted.map Saved.noteToJson).mapM Saved.noteOfJson?).bind fun counted =>
      some { Store.empty true with committed := ⟨notes, counted⟩, number := store.number }) = _
  simp [Saved.mapM_noteOfJson?_noteToJson]

def save (store : Store) : String :=
  store.toJson.compact

def load (text : String) : Except Fault Store :=
  match (Json.read? text).bind ofJson? with
  | some store => .ok store
  | none => .error (.corrupted "the saved notes cannot be read")

end Store

end Index
end Commonplace
