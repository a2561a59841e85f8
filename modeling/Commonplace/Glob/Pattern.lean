import Commonplace.Text.Ends

namespace Commonplace
namespace Glob

/-!
# Path patterns

A pattern is a list of parts, and it is matched against the bytes of a text, without regard to the
case of ASCII letters.  A part that matches a beginning of a text leaves a rest; matching keeps
all rests that are possible.  They are ends of one text, so their lengths tell them apart.
-/

inductive Part where
  /-- One given byte. -/
  | byte (value : UInt8)
  /-- Any one byte. -/
  | anyByte
  /-- Any bytes. -/
  | anyBytes
  /-- Nothing, or directories up to and with their last slash. -/
  | leadingDirectories
  /-- A slash and anything below it. -/
  | everythingBelow
  /-- A slash, or directories between two slashes. -/
  | innerDirectories
  /-- One byte in one of the ranges, or, when negated, in none. -/
  | oneOf (negated : Bool) (ranges : List (UInt8 × UInt8))
  /-- One of some patterns. -/
  | alternatives (branches : List (List Part))
  deriving Inhabited

def slash : UInt8 :=
  47

/-- A byte with an ASCII capital letter made small. -/
def lowerByte (value : UInt8) : UInt8 :=
  if 65 ≤ value && value ≤ 90 then value + 32 else value

/-- A byte with an ASCII small letter made capital. -/
def upperByte (value : UInt8) : UInt8 :=
  if 97 ≤ value && value ≤ 122 then value - 32 else value

def inRange (value : UInt8) (range : UInt8 × UInt8) : Bool :=
  range.1 ≤ value && value ≤ range.2

/-- Whether a byte, in either case, lies in one of some ranges. -/
def inRanges (ranges : List (UInt8 × UInt8)) (value : UInt8) : Bool :=
  ranges.any fun range =>
    inRange value range || inRange (lowerByte value) range || inRange (upperByte value) range

/-- The ends of a text that follow a slash. -/
def endsAfterSlash : List UInt8 -> List (List UInt8)
  | [] => []
  | head :: tail =>
      if head == slash then tail :: endsAfterSlash tail else endsAfterSlash tail

mutual

/-- The pattern writes no condition down: an alternative of this kind is left out. -/
def Part.isVoid : Part -> Bool
  | .alternatives branches => allVoidBranches branches
  | _ => false

def allVoid : List Part -> Bool
  | [] => true
  | part :: parts => part.isVoid && allVoid parts

def allVoidBranches : List (List Part) -> Bool
  | [] => true
  | branch :: branches => allVoid branch && allVoidBranches branches

end

mutual

/-- The rests of a text after a beginning that a part matches. -/
def Part.rests (text : List UInt8) : Part -> List (List UInt8)
  | .byte value => Text.endAfter (fun other => lowerByte other == lowerByte value) text
  | .anyByte => Text.endAfter (fun _ => true) text
  | .anyBytes => Text.ends text
  | .leadingDirectories => text :: endsAfterSlash text
  | .everythingBelow =>
      match text with
      | head :: tail => if head == slash then Text.ends tail else []
      | [] => []
  | .innerDirectories =>
      match text with
      | head :: tail => if head == slash then tail :: endsAfterSlash tail else []
      | [] => []
  | .oneOf negated ranges => Text.endAfter (fun value => inRanges ranges value != negated) text
  | .alternatives branches =>
      if allVoidBranches branches then [text] else branchRests text branches

/-- The rests of a text after a beginning that a pattern matches. -/
def patternRests (texts : List (List UInt8)) : List Part -> List (List UInt8)
  | [] => texts
  | part :: parts =>
      patternRests (Text.distinctEnds (texts.flatMap fun text => part.rests text)) parts

/-- The rests of a text after a beginning that one of some branches matches. -/
def branchRests (text : List UInt8) : List (List Part) -> List (List UInt8)
  | [] => []
  | branch :: branches =>
      let others := branchRests text branches
      if allVoid branch then others else patternRests [text] branch ++ others

end

/-- Whether a pattern matches a whole text.  The pattern of all directories alone matches
everything. -/
def matchesBytes (parts : List Part) (text : List UInt8) : Bool :=
  match parts with
  | [.leadingDirectories] => true
  | parts => (patternRests [text] parts).any List.isEmpty

end Glob
end Commonplace
