import ResourceQuery.Filter.Group

/-! # Trees of groups

A group of conditions is written as a list in parentheses, and a group inside it with its word before the
parenthesis. A condition may hold anything that does not end it or make a group of it: parentheses that are
balanced, and commas inside them (`enclosed`). -/

namespace ResourceQuery

/-- **A tree of groups** with conditions at its leaves. -/
inductive LogicTree where
  | leaf (negated : Bool) (column value : String)
  | group (logic : Logic) (negated : Bool) (items : List LogicTree)

namespace LogicTree

/-- What precedes a negated condition or group. -/
def mark (negated : Bool) : String := if negated then "not." else ""

/-- The word of a group. -/
def groupWord (logic : Logic) (negated : Bool) : String := mark negated ++ logic.word

/-- The text of a condition. -/
def leafText (negated : Bool) (column value : String) : List Char :=
  (mark negated ++ column ++ "." ++ value).toList

mutual
/-- **The text of a tree.** -/
def text : LogicTree → List Char
  | leaf negated column value => leafText negated column value
  | group logic negated items =>
    (groupWord logic negated).toList ++ '(' :: Text.joinWith [','] (texts items) ++ [')']

/-- The texts of trees. -/
def texts : List LogicTree → List (List Char)
  | [] => []
  | t :: ts => text t :: texts ts
end

/-- The text of a list of trees, in parentheses. -/
def listText (items : List LogicTree) : List Char := '(' :: Text.joinWith [','] (texts items) ++ [')']

mutual
/-- How many groups stand inside one another. -/
def levels : LogicTree → Nat
  | leaf _ _ _ => 0
  | group _ _ items => levelsOf items + 1

/-- How many groups stand inside one another in a list. -/
def levelsOf : List LogicTree → Nat
  | [] => 0
  | t :: ts => max (levels t) (levelsOf ts)
end

mutual
/-- **The filter that a tree means**, or why its first unreadable condition is refused. -/
def filter : LogicTree → Except FilterError Filter
  | leaf negated column value => do
    let ops ← FilterValue.parse (mark negated ++ value)
    return .column column ops
  | group logic negated items => do
    let gs ← filters items
    return if negated then .negation (.group logic gs) else .group logic gs

/-- The filters that trees mean. -/
def filters : List LogicTree → Except FilterError (List Filter)
  | [] => return []
  | t :: ts => do
    let g ← filter t
    let gs ← filters ts
    return g :: gs
end

/-- **Whether parentheses are balanced and commas stand inside them**; `depth` parentheses are open. -/
def enclosed : Nat → List Char → Bool
  | depth, [] => depth = 0
  | depth, c :: cs =>
    if c = '(' then enclosed (depth + 1) cs
    else if c = ')' then depth ≠ 0 && enclosed (depth - 1) cs
    else (c ≠ ',' || depth ≠ 0) && enclosed depth cs

/-- What makes a group of a text. -/
def groupMarks : List (List Char) :=
  ["and(".toList, "or(".toList, "not.and(".toList, "not.or(".toList]

/-- **A tree whose conditions are taken for what they are.** -/
inductive WellFormed : LogicTree → Prop where
  | leaf {negated : Bool} {column value : String} (hcolumn : '.' ∉ column.toList)
      (htrimmed : Text.Trimmed (leafText negated column value))
      (henclosed : enclosed 0 (leafText negated column value))
      (hgroup : ∀ m ∈ groupMarks, ¬ m <+: leafText negated column value)
      (hnegated : negated = false → ¬ "not.".toList <+: leafText negated column value) :
      WellFormed (leaf negated column value)
  | group {logic : Logic} {negated : Bool} {items : List LogicTree}
      (hitems : ∀ t ∈ items, WellFormed t) : WellFormed (group logic negated items)

end LogicTree

end ResourceQuery
