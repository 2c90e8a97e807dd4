import ResourceQuery.Filter.Basic

/-! # Filters as JSON

A filter is an object: columns stand under their names, groups and the negation under `$and`, `$or` and
`$not`. A column of such a name stands beside them, so the object may name a key twice. -/

namespace ResourceQuery

/-- A text search. -/
def TextSearch.json (t : TextSearch) : Json :=
  .obj (("query", .str t.query) :: Json.field? "type" (t.kind.map fun k => .str k.name) ++
    Json.field? "config" (t.config.map .str))

mutual
/-- An operand. -/
def Operand.json : Operand → Json
  | .value v => v
  | .textSearch t => t.json
  | .negated ops => .obj (OperatorMap.fields ops)

/-- Operators with their operands. -/
def OperatorMap.fields : List (Operator × Operand) → List (String × Json)
  | [] => []
  | (op, operand) :: ops => (op.name, operand.json) :: OperatorMap.fields ops
end

/-- An operator map. -/
def OperatorMap.json (ops : OperatorMap) : Json := .obj (OperatorMap.fields ops)

/-- The name of a place in a filter. -/
def Filter.Key.name : Filter.Key → String
  | .column name => name
  | .group logic => logic.name
  | .negation => "$not"

mutual
/-- A condition, without its place. -/
def Condition.json : Condition → Json
  | .column _ ops => OperatorMap.json ops
  | .group _ gs => .arr (Filter.jsonList gs)
  | .negation g => .obj (Filter.fields g)

/-- Conditions, each under the name of its place. -/
def Filter.fields : List Condition → List (String × Json)
  | [] => []
  | c :: f => (c.key.name, c.json) :: Filter.fields f

/-- The filters of a group. -/
def Filter.jsonList : List (List Condition) → List Json
  | [] => []
  | g :: gs => .obj (Filter.fields g) :: Filter.jsonList gs
end

/-- **A filter.** -/
def Filter.json (f : Filter) : Json := .obj (Filter.fields f)

end ResourceQuery
