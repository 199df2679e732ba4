/-
# Writing filters

A written form for every filter: compound parts in parentheses, values in quotes.  Beside it
stands the shape of a filter in JSON: how its comparisons are joined, without their values.
-/
import StagedRollout.Filter.Token
import StagedRollout.Json.Basic

namespace StagedRollout.TargetFilter

/-- A field as it is written in a filter. -/
def Field.source : Field → List Char
  | .id => "id".toList
  | .name => "name".toList
  | .tag => "tag".toList
  | .attribute key => "attribute.".toList ++ key.toList

/-- A character inside quotes. -/
def escapeQuoted (c : Char) : List Char := if c = '"' ∨ c = '\\' then ['\\', c] else [c]

/-- A value in quotes. -/
def quoteValue (value : String) : List Char :=
  '"' :: (value.toList.flatMap escapeQuoted ++ ['"'])

mutual

/-- A filter as text. -/
def Expr.source : Expr → List Char
  | .all parts => Expr.sources ';' parts
  | .any parts => Expr.sources ',' parts
  | .compare field op value => field.source ++ op.sign.toList ++ quoteValue value

/-- A filter as a part of another. -/
def Expr.partSource : Expr → List Char
  | .compare field op value => field.source ++ op.sign.toList ++ quoteValue value
  | .all parts => '(' :: (Expr.sources ';' parts ++ [')'])
  | .any parts => '(' :: (Expr.sources ',' parts ++ [')'])

/-- Parts with a separator between them. -/
def Expr.sources (sep : Char) : List Expr → List Char
  | [] => []
  | [e] => e.partSource
  | e :: next :: rest => e.partSource ++ sep :: Expr.sources sep (next :: rest)

end

/-- A field in JSON. -/
def Field.toJson : Field → Json
  | .id => .str "id"
  | .name => .str "name"
  | .tag => .str "tag"
  | .attribute key => .obj [("attribute", .str key)]

mutual

/-- The shape of a filter in JSON. -/
def Expr.toJson : Expr → Json
  | .all parts => .obj [("and", .arr (Expr.toJsons parts))]
  | .any parts => .obj [("or", .arr (Expr.toJsons parts))]
  | .compare field op _ => .obj [("field", field.toJson), ("op", .str op.sign)]

/-- The shapes of filters in JSON. -/
def Expr.toJsons : List Expr → List Json
  | [] => []
  | e :: rest => e.toJson :: Expr.toJsons rest

end

end StagedRollout.TargetFilter
