namespace Commonplace

/-!
# Query trees

A query is a list of expressions that all have to hold.  Values and dates are kept as they were
written; what they mean is decided where a query is applied to a note or to an index.
-/

inductive Comparison where
  | equals
  | startsWith
  | endsWith
  | greater
  | atLeast
  | less
  | atMost
  deriving DecidableEq, Inhabited

namespace Comparison

def sign : Comparison -> String
  | equals => "="
  | startsWith => "^"
  | endsWith => "$"
  | greater => ">"
  | atLeast => ">="
  | less => "<"
  | atMost => "<="

def all : List Comparison :=
  [equals, startsWith, endsWith, greater, atLeast, less, atMost]

def ofSign? (text : String) : Option Comparison :=
  all.find? fun comparison => comparison.sign == text

/-- Whether a comparison asks for an order rather than for equality or a part. -/
def isOrdering : Comparison -> Bool
  | greater | atLeast | less | atMost => true
  | equals | startsWith | endsWith => false

end Comparison

/-- Where the star of a wildcard pattern sits: `java*` is open at its end, `*java` at its start,
and `*java*` and everything else at both. -/
inductive WildcardKind where
  | openEnd
  | openStart
  | openBoth
  deriving DecidableEq, Inhabited

namespace WildcardKind

/-- The name of a kind in machine-readable output, after the part of a word that the pattern
fixes. -/
def name : WildcardKind -> String
  | openEnd => "prefix"
  | openStart => "suffix"
  | openBoth => "both"

/-- The kind that a pattern shows by the stars at its ends. -/
def ofPattern (pattern : String) : WildcardKind :=
  match pattern.toList.head? == some '*', pattern.toList.getLast? == some '*' with
  | true, true => openBoth
  | true, false => openStart
  | false, true => openEnd
  | false, false => openBoth

def isStar (character : Char) : Bool :=
  character == '*'

/-- The characters at the end of a pattern without the stars there. -/
def withoutEndStars (pattern : List Char) : List Char :=
  (pattern.reverse.dropWhile isStar).reverse

/-- A pattern with the stars at its ends reduced to the shape of the kind.  A pattern with a star
in its middle keeps all its stars when it is open at both ends. -/
def normalizeChars (kind : WildcardKind) (pattern : List Char) : List Char :=
  match kind with
  | openEnd => withoutEndStars pattern ++ ['*']
  | openStart => '*' :: pattern.dropWhile isStar
  | openBoth =>
      let inner := withoutEndStars (pattern.dropWhile isStar)
      if inner.contains '*' then pattern else '*' :: inner ++ ['*']

/-- A pattern with the stars at its ends reduced to the shape of the kind. -/
def normalize (kind : WildcardKind) (pattern : String) : String :=
  String.ofList (kind.normalizeChars pattern.toList)

end WildcardKind

/-- One node of a query tree. -/
inductive Expr where
  /-- A word or a phrase in the title, the lead or the body. -/
  | term (value : String)
  /-- A field compared with a value. -/
  | field (name : String) (comparison : Comparison) (value : String)
  /-- Everything that the inner expression does not select. -/
  | not (inner : Expr)
  /-- Everything that either side selects. -/
  | or (left right : Expr)
  /-- Everything that all expressions select. -/
  | and (expressions : List Expr)
  /-- A date field compared with a date text. -/
  | date (name : String) (comparison : Comparison) (value : String)
  /-- A date field between two date texts, both ends included. -/
  | range (name start stop : String)
  /-- A pattern with stars; a pattern without a field is meant for the body. -/
  | wildcard (name pattern : String) (kind : WildcardKind)
  /-- Whether a field has a value, or, when negated, has none. -/
  | exists (name : String) (negated : Bool)
  deriving Inhabited, BEq

namespace Expr

/-- A wildcard of the kind that its pattern shows. -/
def wildcardOf (name pattern : String) : Expr :=
  .wildcard name pattern (.ofPattern pattern)

/-- The conjunction of some expressions; a single one stands for itself. -/
def conjunction : List Expr -> Expr
  | [expression] => expression
  | expressions => .and expressions

def kindName : Expr -> String
  | term .. => "term"
  | field .. => "field"
  | not .. => "not"
  | or .. => "or"
  | and .. => "and"
  | date .. => "date"
  | range .. => "range"
  | wildcard .. => "wildcard"
  | «exists» .. => "exists"

end Expr

/-- A query: expressions that all have to hold, and the text they were read from. -/
structure Query where
  expressions : List Expr
  raw : String
  deriving Inhabited, BEq

namespace Query

/-- A query that was not read from a text. -/
def ofExpressions (expressions : List Expr) : Query :=
  ⟨expressions, ""⟩

def empty : Query :=
  ofExpressions []

def isEmpty (query : Query) : Bool :=
  query.expressions.isEmpty

/-- A query with one more expression that has to hold. -/
def andAlso (query : Query) (expression : Expr) : Query :=
  { query with expressions := query.expressions ++ [expression] }

end Query

end Commonplace
