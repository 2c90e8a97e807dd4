import ResourceQuery.Filter.Group
import ResourceQuery.QueryParams
import ResourceQuery.Select.Aliases

/-! # The filters of a request

Every parameter whose key is not reserved is a filter. A key that leads into an embed, by the labels it
starts with, is a filter of that embed under the key that is left, unless that one orders or cuts the
embed's rows; any other key is a filter of the request itself.

* `applyKey`: what a key with its values adds to a filter. `and` and `or`, negated or not, pool the
  expressions of all values into one group; any other key is a column, and each value a condition on it.
* `Filters.step`: where a key's filter goes. -/

namespace ResourceQuery

/-- **The filter of a request**, and those of its embeds by path. -/
structure Filters where
  top : Filter
  embedded : List (List String × Filter)
deriving Inhabited

namespace Filters

/-- The filters that the values of a group list, together. -/
def pool : List String → Except FilterError (List Filter)
  | [] => .ok []
  | v :: vs => do
    let gs ← FilterGroup.parse v
    let hs ← pool vs
    return gs ++ hs

/-- The conditions that the values of a column add. -/
def addValues (name : String) : List String → Filter → Except FilterError Filter
  | [], f => .ok f
  | v :: vs, f => do
    let ops ← FilterValue.parse v
    addValues name vs (f.addColumn name ops)

/-- The kind of group a key names, and whether it is negated. -/
def groupKey? (key : String) : Option (Logic × Bool) :=
  match Text.dropLead? FilterValue.notMark key.toList with
  | some name => (Logic.ofWord? (String.ofList name)).map (·, true)
  | none => (Logic.ofWord? key).map (·, false)

/-- **What a key with its values adds to a filter.** -/
def applyKey (key : String) (values : List String) (f : Filter) : Except FilterError Filter :=
  match groupKey? key with
  | some (logic, negated) => do
    let gs ← pool values
    return if negated then f.addNegation (.group logic gs) else f.addGroup logic gs
  | none => addValues key values f

/-- The filters with one of them changed; that of an embed starts without conditions. -/
def modify (path : List String) (change : Filter → Except FilterError Filter) (fs : Filters) :
    Except FilterError Filters :=
  match path with
  | [] => (change fs.top).map fun f => { fs with top := f }
  | _ => (change ((Entries.get? path fs.embedded).getD [])).map fun f =>
      { fs with embedded := Entries.insert path f fs.embedded }

/-- **One parameter.** -/
def step (tree : AliasTree) (fs : Filters) (e : String × List String) : Except FilterError Filters :=
  if isReserved e.1 then .ok fs
  else
    let (path, key) := tree.split e.1
    if path ≠ [] ∧ isWindowKey key then .ok fs else modify path (applyKey key e.2) fs

/-- **The filters that parameters make**, given the labels of the select list. -/
def ofParams (params : QueryParams) (tree : AliasTree) : Except FilterError Filters :=
  params.entries.foldlM (step tree) ⟨[], []⟩

end Filters

end ResourceQuery
