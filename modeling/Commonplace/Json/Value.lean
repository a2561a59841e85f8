namespace Commonplace

/-!
# Structured values

The values that a note's metadata and the machine-readable answers are made of.  Whole numbers
and fractions are different things: `1` and `1.0` are not the same value.
-/

inductive Json where
  | null
  | bool (value : Bool)
  | whole (value : Int)
  | fraction (value : Float)
  | text (value : String)
  | list (items : List Json)
  | object (fields : List (String × Json))
  deriving Inhabited

namespace Json

def text? : Json -> Option String
  | .text value => some value
  | _ => none

/-- A text, or null where there is none. -/
def ofText? (value : Option String) : Json :=
  value.elim .null .text

end Json

end Commonplace
