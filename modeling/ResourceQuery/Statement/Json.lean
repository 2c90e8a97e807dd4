import ResourceQuery.Filter.Json
import ResourceQuery.Select.Json
import ResourceQuery.Statement.Basic

/-! # Statements as JSON

A statement is one object. What is absent is left out, so no part of it is ever empty. -/

namespace ResourceQuery

open Json (field?)

/-- The conditions at an embed, as fields. -/
def EmbedConditions.fields (c : EmbedConditions) : List (String × Json) :=
  field? "where" (c.filter.map Filter.json) ++ c.window.fields

/-- The entries of a select list. -/
def Statement.selectJson (items : List (Select.Item EmbedConditions)) : Json :=
  .arr (Select.itemsJson EmbedConditions.fields items)

/-- What becomes of conflicting rows, as fields. -/
def Upsert.fields (u : Upsert) : List (String × Json) :=
  field? "onConflict" (u.onConflict.map .str) ++ [("ignoreDuplicates", .bool u.ignoreDuplicates)]

/-- How a function is called, as fields. -/
def Call.fields (c : Call) : List (String × Json) :=
  field? "httpMethod" (c.method.map fun m => .str m.word) ++
    field? "paramsType" (c.style.map fun s => .str s.word) ++
    field? "inputType" (c.source.map fun s => .str s.word)

/-- **A statement.** -/
def Statement.json (s : Statement) : Json :=
  .obj (("type", .str s.kind.word) :: s.target.fields ++
    field? "schema" (s.schema.map .str) ++
    field? "join" (s.join.map Select.JoinMap.json) ++
    field? "select" (s.select.map selectJson) ++
    field? "where" (s.filter.map Filter.json) ++
    field? "values" s.values ++
    field? "args" s.call.args ++
    s.window.fields ++
    (s.upsert.map Upsert.fields).getD [] ++
    s.call.fields ++
    field? "$meta" (s.info.map Meta.json))

end ResourceQuery
