import ResourceQuery.Json.Basic
import ResourceQuery.Number.Decimal
import ResourceQuery.QueryParams
import ResourceQuery.Select.Aliases
import ResourceQuery.Text.Blank
import ResourceQuery.Text.Quoted

/-! # Order, limit and offset

In which order rows come, how many of them, and how many are skipped first; for the request itself and
for each embed. Only the first value of a key counts.

* `Order.parse`: terms between commas, each a column with a direction and a place for nulls after
  points; blank terms are skipped, and without a term there is no order.
* `count?`: an optional plus sign and digits, blanks around them ignored, below 2^64.
* `Windows.step`: where a key's value goes. -/

namespace ResourceQuery

/-- Which way rows are ordered. -/
inductive Direction where
  | asc
  | desc
deriving DecidableEq, Repr

namespace Direction

/-- The word of a direction. -/
def word : Direction → String
  | asc => "asc"
  | desc => "desc"

end Direction

/-- **A column to order by.** -/
structure OrderTerm where
  column : String
  direction : Option Direction
  nullsFirst : Option Bool
deriving DecidableEq, Repr

namespace OrderTerm

/-- A word after the column; an unknown one says nothing. -/
def modify (t : OrderTerm) (word : List Char) : OrderTerm :=
  if word = "asc".toList then { t with direction := some .asc }
  else if word = "desc".toList then { t with direction := some .desc }
  else if word = "nullsfirst".toList then { t with nullsFirst := some true }
  else if word = "nullslast".toList then { t with nullsFirst := some false }
  else t

/-- A term of an order: a column, then words after points. -/
def ofChars (cs : List Char) : OrderTerm :=
  match Text.splitOn '.' cs with
  | [] => ⟨"", none, none⟩
  | column :: words => words.foldl modify ⟨String.ofList column, none, none⟩

/-- A term as JSON. -/
def json (t : OrderTerm) : Json :=
  .obj (("column", .str t.column) :: Json.field? "direction" (t.direction.map fun d => .str d.word) ++
    Json.field? "nullsFirst" (t.nullsFirst.map .bool))

end OrderTerm

namespace Order

/-- The terms of an order. -/
def terms (cs : List Char) : List OrderTerm :=
  (((Text.splitOn ',' cs).map Text.trim).filter (· ≠ [])).map OrderTerm.ofChars

/-- **An order**, unless it has no terms. -/
def parse (value : String) : Option (List OrderTerm) :=
  match terms value.toList with
  | [] => none
  | t :: ts => some (t :: ts)

/-- An order as JSON. -/
def json (ts : List OrderTerm) : Json := .arr (ts.map OrderTerm.json)

end Order

/-- **Why a limit or an offset is refused.** -/
inductive WindowError where
  | invalidInteger (key value : String)
deriving DecidableEq, Repr

/-- The wording of an error. -/
def WindowError.message : WindowError → String
  | invalidInteger key value =>
    "Invalid " ++ key ++ " value " ++ Text.quoted value ++ ": expected a non-negative integer"

/-- **Which rows of a result, in which order.** -/
structure Window where
  order : Option (List OrderTerm)
  limit : Option Nat
  offset : Option Nat
deriving DecidableEq, Repr, Inhabited

namespace Window

/-- All rows, in no order. -/
def all : Window := ⟨none, none, none⟩

/-- An unsigned number: digits after an optional plus sign, below 2^64. -/
def unsigned? (cs : List Char) : Option Nat :=
  let ds := match cs with
    | '+' :: r => r
    | r => r
  if ds ≠ [] ∧ ds.all Char.isDigit ∧ fitsUInt64 (digitsValue ds) then some (digitsValue ds) else none

/-- The number that a value is, blanks around it ignored. -/
def count? (value : String) : Option Nat := unsigned? (Text.trim value.toList)

/-- The number that a value is; otherwise the error names the whole key. -/
def count (fullKey value : String) : Except WindowError Nat :=
  match count? value with
  | some n => .ok n
  | none => .error (.invalidInteger fullKey value)

/-- What a value says under one of the three keys. -/
def apply (fullKey key value : String) (w : Window) : Except WindowError Window :=
  if key = "order" then .ok { w with order := Order.parse value }
  else if key = "limit" then (count fullKey value).map fun n => { w with limit := some n }
  else if key = "offset" then (count fullKey value).map fun n => { w with offset := some n }
  else .ok w

/-- A window as JSON fields. -/
def fields (w : Window) : List (String × Json) :=
  Json.field? "order" (w.order.map Order.json) ++
    Json.field? "limit" (w.limit.map fun n => .int n) ++
    Json.field? "offset" (w.offset.map fun n => .int n)

end Window

/-- **The window of a request**, and those of its embeds by path. -/
structure Windows where
  top : Window
  embedded : List (List String × Window)
deriving Inhabited

namespace Windows

/-- The windows with one of them changed; that of an embed starts with all rows. -/
def modify (path : List String) (change : Window → Except WindowError Window) (ws : Windows) :
    Except WindowError Windows :=
  match path with
  | [] => (change ws.top).map fun w => { ws with top := w }
  | _ => (change ((Entries.get? path ws.embedded).getD .all)).map fun w =>
      { ws with embedded := Entries.insert path w ws.embedded }

/-- **One parameter.** -/
def step (tree : AliasTree) (ws : Windows) (e : String × List String) : Except WindowError Windows :=
  match e.2 with
  | [] => .ok ws
  | value :: _ =>
    let (path, key) := tree.split e.1
    if isWindowKey key then modify path (Window.apply e.1 key value) ws else .ok ws

/-- **The windows that parameters make**, given the labels of the select list. -/
def ofParams (params : QueryParams) (tree : AliasTree) : Except WindowError Windows :=
  params.entries.foldlM (step tree) ⟨.all, []⟩

end Windows

end ResourceQuery
