import ResourceQuery.Json.Basic
import ResourceQuery.Select.Basic

/-! # Select lists as JSON

A star and a plain column are strings; a field and an embed are objects with their label as the only
key. What is absent is left out, and so is a left join. -/

namespace ResourceQuery.Select

open Json (field? flag)

/-- A field without its label. -/
def Field.json (f : Field) : Json :=
  .obj (field? "column" (f.column.map .str) ++ field? "path" (f.path.map .str) ++
    field? "preCast" (f.preCast.map .str) ++
    field? "aggregate" (f.aggregate.map fun a => .str a.word) ++ field? "cast" (f.cast.map .str))

/-- A join. -/
def Join.json (j : Join) : Json :=
  .obj (field? "from" (j.resource.map .str) ++
    (match j.kind with
      | .left => []
      | .inner => [("type", .str "inner")]) ++
    field? "hint" (j.hint.map .str))

/-- The joins of a level. -/
def JoinMap.json (join : JoinMap) : Json := .obj (join.map fun e => (e.1, e.2.json))

variable {α : Type}

mutual
/-- **An entry**; `note` gives the fields that an embed's note adds after its list. -/
def Item.json (note : α → List (String × Json)) : Item α → Json
  | .star => .str "*"
  | .column name => .str name
  | .field label f => .obj [(label, f.json)]
  | .embed label items a spread join =>
    .obj [(label, .obj (("select", .arr (itemsJson note items)) :: note a ++ flag "spread" spread ++
      field? "join" (join.map JoinMap.json)))]

/-- The entries of a list. -/
def itemsJson (note : α → List (String × Json)) : List (Item α) → List Json
  | [] => []
  | i :: is => i.json note :: itemsJson note is
end

end ResourceQuery.Select
