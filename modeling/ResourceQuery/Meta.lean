import ResourceQuery.Http.Request
import ResourceQuery.QueryParams

/-! # How to answer

What a request says about its answer rather than about its rows: preferences, a single object or a plan
by the accepted types, and the columns of a payload. Of several preferences of a kind the last known one
counts.

The options of a plan follow `options=` in the accepted types, up to the next semicolon, with bars
between them. -/

namespace ResourceQuery

/-- What a plan shows. -/
structure ExplainOptions where
  analyze : Bool
  verbose : Bool
  settings : Bool
  buffers : Bool
  wal : Bool
deriving DecidableEq, Repr

namespace ExplainOptions

/-- Nothing beyond the plan. -/
def none : ExplainOptions := ⟨false, false, false, false, false⟩

/-- One more option; an unknown one says nothing. -/
def set (o : ExplainOptions) (option : List Char) : ExplainOptions :=
  if option = "analyze".toList then { o with analyze := true }
  else if option = "verbose".toList then { o with verbose := true }
  else if option = "settings".toList then { o with settings := true }
  else if option = "buffers".toList then { o with buffers := true }
  else if option = "wal".toList then { o with wal := true }
  else o

/-- **The options in the accepted types.** -/
def parse (accept : String) : ExplainOptions :=
  match Text.after? "options=".toList accept.toList with
  | Option.none => none
  | some rest =>
    ((Text.splitOn '|' (rest.takeWhile (· != ';'))).map Text.trim).foldl set none

/-- The options as JSON, set or not. -/
def json (o : ExplainOptions) : Json :=
  .obj [("analyze", .bool o.analyze), ("verbose", .bool o.verbose), ("settings", .bool o.settings),
    ("buffers", .bool o.buffers), ("wal", .bool o.wal)]

end ExplainOptions

/-- **What is said about the answer.** -/
structure Meta where
  single : Bool
  count : Option CountStrategy
  head : Bool
  maxAffected : Option Int
  rollback : Bool
  missing : Option MissingPolicy
  handling : Option Handling
  timezone : Option String
  columns : Option (List String)
  explain : Option ExplainOptions
deriving DecidableEq, Repr

namespace Meta

/-- Nothing said. -/
def empty : Meta := ⟨false, none, false, none, false, none, none, none, none, none⟩

/-- Whether nothing is said. -/
def isEmpty (m : Meta) : Bool := m == empty

/-- One more preference. -/
def prefer (m : Meta) : Preference → Meta
  | .count c => { m with count := some c }
  | .missing p => { m with missing := some p }
  | .handling h => { m with handling := some h }
  | .tx .rollback => { m with rollback := true }
  | .maxAffected n => { m with maxAffected := some n }
  | .timezone z => { m with timezone := some z }
  | _ => m

/-- The type of a single object. -/
def objectType : String := "application/vnd.pgrst.object+json"

/-- What the type of a plan starts with. -/
def planType : String := "application/vnd.pgrst.plan+"

/-- A column's name without blanks, and without a quote at either end. -/
def columnName (cs : List Char) : String :=
  let name := Text.trim cs
  let name := (Text.dropLead? ['"'] name).getD name
  String.ofList ((Text.dropTail? ['"'] name).getD name)

/-- The columns that a parameter lists. -/
def parseColumns (value : String) : List String :=
  (Text.splitOn ',' value.toList).map columnName

/-- **What a request says about its answer.** -/
def ofRequest (headers : RequestHeaders) (params : QueryParams) (method : Method) : Meta :=
  { headers.prefer.foldl prefer empty with
    head := method == .head
    single := Text.occurs objectType.toList headers.accept.toList
    explain := if Text.occurs planType.toList headers.accept.toList then
      some (ExplainOptions.parse headers.accept) else none
    columns := (params.first? "columns").map parseColumns }

/-- What is said, as JSON; what is not said is left out. -/
def json (m : Meta) : Json :=
  .obj ((if m.single then [("cardinality", .str "one")] else []) ++
    Json.field? "count" (m.count.map fun c => .str c.word) ++ Json.flag "head" m.head ++
    Json.field? "maxAffected" (m.maxAffected.map .int) ++ Json.flag "rollback" m.rollback ++
    Json.field? "missing" (m.missing.map fun p => .str p.word) ++
    Json.field? "handling" (m.handling.map fun h => .str h.word) ++
    Json.field? "timezone" (m.timezone.map .str) ++
    Json.field? "columns" (m.columns.map fun cs => .arr (cs.map .str)) ++
    Json.field? "explain" (m.explain.map ExplainOptions.json))

end Meta

end ResourceQuery
