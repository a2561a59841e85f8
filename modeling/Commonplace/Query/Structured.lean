import Commonplace.Json.Value
import Commonplace.Query.Language
import Commonplace.Query.Parser
import Commonplace.Query.Printer

namespace Commonplace

/-!
# Queries as structured values

Every node is an object whose field `type` names its kind.
-/

mutual

/-- The structured form of an expression. -/
def Expr.toJson : Expr -> Json
  | .term value => .object [("type", .text "term"), ("value", .text value)]
  | .field name comparison value =>
      .object [("type", .text "field"), ("field", .text name), ("op", .text comparison.sign),
        ("value", .text value)]
  | .not inner => .object [("type", .text "not"), ("inner", inner.toJson)]
  | .or left right =>
      .object [("type", .text "or"), ("left", left.toJson), ("right", right.toJson)]
  | .and expressions =>
      .object [("type", .text "and"), ("expressions", .list (exprsToJson expressions))]
  | .date name comparison value =>
      .object [("type", .text "date"), ("field", .text name), ("op", .text comparison.sign),
        ("value", .text value)]
  | .range name start stop =>
      .object [("type", .text "range"), ("field", .text name), ("start", .text start),
        ("end", .text stop)]
  | .wildcard name pattern kind =>
      .object [("type", .text "wildcard"), ("field", .text name), ("pattern", .text pattern),
        ("kind", .text kind.name)]
  | .exists name negated =>
      .object [("type", .text "exists"), ("field", .text name), ("negated", .bool negated)]

/-- The structured forms of some expressions. -/
def exprsToJson : List Expr -> List Json
  | [] => []
  | expression :: rest => expression.toJson :: exprsToJson rest

end

def Query.toJson (query : Query) : Json :=
  .object [("expressions", .list (exprsToJson query.expressions)), ("raw", .text query.raw)]

/-- The structured form of a field of the query language. -/
def FieldSpec.toJson (spec : FieldSpec) : Json :=
  .object [("name", .text spec.name), ("description", .text spec.description),
    ("example", .text spec.sample), ("supports_wildcard", .bool spec.takesWildcard),
    ("supports_range", .bool spec.takesRange),
    ("supports_comparison", .bool spec.takesComparison)]

end Commonplace
