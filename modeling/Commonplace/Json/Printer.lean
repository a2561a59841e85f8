import Commonplace.Decimal.Placed
import Commonplace.Json.Value

namespace Commonplace
namespace Json

/-!
# Writing structured values

The compact form has no blanks; the indented form puts every item on a line of its own, two blanks
deeper than what holds it.
-/

/-- The hexadecimal digit of a number below sixteen. -/
def hexDigit (value : Nat) : Char :=
  Nat.digitChar (value % 16)

/-- A character as it stands inside a quoted text. -/
def escaped (character : Char) : List Char :=
  match character with
  | '"' => ['\\', '"']
  | '\\' => ['\\', '\\']
  | '\n' => ['\\', 'n']
  | '\r' => ['\\', 'r']
  | '\t' => ['\\', 't']
  | other =>
      if other.toNat == 8 then ['\\', 'b']
      else if other.toNat == 12 then ['\\', 'f']
      else if other.toNat < 32 then
        ['\\', 'u', '0', '0', hexDigit (other.toNat / 16), hexDigit other.toNat]
      else [other]

def quoted (text : String) : String :=
  String.ofList ('"' :: text.toList.flatMap escaped ++ ['"'])

/-- A finite double, with the fewest digits that read back. -/
def fractionText (value : Float) : String :=
  Decimal.placed .always value

mutual

def compact : Json -> String
  | .null => "null"
  | .bool value => if value then "true" else "false"
  | .whole value => toString value
  | .fraction value => fractionText value
  | .text value => quoted value
  | .list items => "[" ++ ",".intercalate (compactItems items) ++ "]"
  | .object fields => "\x7b" ++ ",".intercalate (compactFields fields) ++ "\x7d"

def compactItems : List Json -> List String
  | [] => []
  | item :: rest => compact item :: compactItems rest

def compactFields : List (String × Json) -> List String
  | [] => []
  | (name, value) :: rest => (quoted name ++ ":" ++ compact value) :: compactFields rest

end

/-- A line break and the blanks that indent what follows it. -/
def lineBreak (depth : Nat) : String :=
  "\n" ++ String.ofList (List.replicate (2 * depth) ' ')

/-- Items between brackets, each on its own line. -/
def enclosed (opening closing : String) (depth : Nat) (items : List String) : String :=
  if items.isEmpty then opening ++ closing
  else
    opening ++ lineBreak (depth + 1) ++ ("," ++ lineBreak (depth + 1)).intercalate items ++
      lineBreak depth ++ closing

mutual

/-- The indented form of a value that stands `depth` levels deep. -/
def indented (depth : Nat) : Json -> String
  | .null => "null"
  | .bool value => if value then "true" else "false"
  | .whole value => toString value
  | .fraction value => fractionText value
  | .text value => quoted value
  | .list items => enclosed "[" "]" depth (indentedItems (depth + 1) items)
  | .object fields => enclosed "\x7b" "\x7d" depth (indentedFields (depth + 1) fields)

def indentedItems (depth : Nat) : List Json -> List String
  | [] => []
  | item :: rest => indented depth item :: indentedItems depth rest

def indentedFields (depth : Nat) : List (String × Json) -> List String
  | [] => []
  | (name, value) :: rest =>
      (quoted name ++ ": " ++ indented depth value) :: indentedFields depth rest

end

end Json
end Commonplace
