namespace Commonplace

/-!
# Errors in patterns

What can be wrong with a path pattern.
-/

inductive GlobFault where
  | unclosedClass
  | invalidRange (first last : Char)
  | unopenedAlternatives
  | unclosedAlternatives
  | danglingEscape
  deriving DecidableEq, Inhabited

/-- What is wrong with a pattern, in words. -/
def GlobFault.message : GlobFault -> String
  | unclosedClass => "unclosed character class; missing ']'"
  | invalidRange first last =>
      "invalid range; '" ++ toString first ++ "' > '" ++ toString last ++ "'"
  | unopenedAlternatives =>
      "unopened alternate group; missing '\x7b' (maybe escape '\x7d' with '[\x7d]'?)"
  | unclosedAlternatives =>
      "unclosed alternate group; missing '\x7d' (maybe escape '\x7b' with '[\x7b]'?)"
  | danglingEscape => "dangling '\\'"

/-- A pattern that could not be read. -/
structure GlobError where
  pattern : String
  fault : GlobFault
  deriving DecidableEq, Inhabited

def GlobError.message (error : GlobError) : String :=
  "error parsing glob '" ++ error.pattern ++ "': " ++ error.fault.message

end Commonplace
