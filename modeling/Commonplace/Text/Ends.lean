namespace Commonplace
namespace Text

/-!
# Ends of lists

A pattern that is matched against a text leaves ends of that text.  The ends of one list have
different lengths, so a set of them is kept without repetitions by comparing lengths.
-/

variable {item : Type}

def ends : List item -> List (List item)
  | [] => [[]]
  | head :: tail => (head :: tail) :: ends tail

/-- The ends of a list that are left when items that satisfy a test are dropped one by one. -/
def endsWhile (test : item -> Bool) : List item -> List (List item)
  | [] => [[]]
  | head :: tail => (head :: tail) :: if test head then endsWhile test tail else []

/-- The end after one item that satisfies a test. -/
def endAfter (test : item -> Bool) : List item -> List (List item)
  | [] => []
  | head :: tail => if test head then [tail] else []

/-- Drops repeated ends of one list. -/
def distinctEnds (rests : List (List item)) : List (List item) :=
  rests.foldr (fun rest kept =>
    if kept.any fun other => other.length == rest.length then kept else rest :: kept) []

end Text
end Commonplace
