import Commonplace.Query.Expr
import Commonplace.Text.Blank

namespace Commonplace

/-!
# Writing queries

The text of a query in the query language.  A value is quoted only when it is empty or holds a
blank.  There are no brackets: a disjunction inside a conjunction, and a comparison with a part of
a value, have no text of their own.
-/

namespace Expr

def valueText (value : String) : String :=
  if value.isEmpty || value.toList.any Text.isBlank then "\"" ++ value ++ "\"" else value

mutual

/-- The text of an expression. -/
def text : Expr -> String
  | term value => valueText value
  | field name comparison value | date name comparison value =>
      name ++ ":" ++ (if comparison.isOrdering then comparison.sign else "") ++ valueText value
  | not inner => "-" ++ inner.text
  | or left right => left.text ++ " OR " ++ right.text
  | and expressions => " ".intercalate (texts expressions)
  | range name start stop => name ++ ":" ++ start ++ ".." ++ stop
  | wildcard name pattern _ => if name.isEmpty then pattern else name ++ ":" ++ pattern
  | «exists» name negated => (if negated then "missing:" else "has:") ++ name

def texts : List Expr -> List String
  | [] => []
  | expression :: rest => expression.text :: texts rest

end

end Expr

def Query.text (query : Query) : String :=
  " ".intercalate (Expr.texts query.expressions)

end Commonplace
