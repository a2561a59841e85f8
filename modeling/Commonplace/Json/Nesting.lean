import Commonplace.Json.Printer

namespace Commonplace
namespace Json

/-!
# Nesting

How deep lists and objects stand within each other.  A reader that goes only so deep gives up at the
first one that stands deeper.  In the compact form its place is counted in bytes.
-/

mutual

/-- The largest number of lists and objects within each other. -/
def depth : Json -> Nat
  | .list items => itemsDepth items + 1
  | .object fields => fieldsDepth fields + 1
  | _ => 0

def itemsDepth : List Json -> Nat
  | [] => 0
  | item :: rest => max (depth item) (itemsDepth rest)

def fieldsDepth : List (String × Json) -> Nat
  | [] => 0
  | (_, value) :: rest => max (depth value) (fieldsDepth rest)

end

mutual

/-- The number of bytes in front of the first list or object that is one too deep, when there is
room for a number of them within each other. -/
def bytesBeforeDeep? (room : Nat) : Json -> Option Nat
  | .list items =>
      if room == 0 then some 0 else (itemsBeforeDeep? (room - 1) items).map fun bytes => bytes + 1
  | .object fields =>
      if room == 0 then some 0 else (fieldsBeforeDeep? (room - 1) fields).map fun bytes => bytes + 1
  | _ => none

/-- The same for items with commas between them. -/
def itemsBeforeDeep? (room : Nat) : List Json -> Option Nat
  | [] => none
  | item :: rest =>
      (bytesBeforeDeep? room item).or
        ((itemsBeforeDeep? room rest).map fun bytes => (compact item).utf8ByteSize + 1 + bytes)

/-- The same for fields with commas between them. -/
def fieldsBeforeDeep? (room : Nat) : List (String × Json) -> Option Nat
  | [] => none
  | (name, value) :: rest =>
      let start := (quoted name).utf8ByteSize + 1
      ((bytesBeforeDeep? room value).map fun bytes => start + bytes).or
        ((fieldsBeforeDeep? room rest).map fun bytes =>
          start + (compact value).utf8ByteSize + 1 + bytes)

end

end Json
end Commonplace
