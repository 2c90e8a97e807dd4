import ResourceQuery.Json.Basic
import ResourceQuery.Text.Percent
import ResourceQuery.Text.Split

/-! # Targets

What the path of a request names: a relation, which may be missing, or a function behind `rpc`. The base
path is left off if the path starts with it, and so are slashes at the ends; only the first segments
count. -/

namespace ResourceQuery

/-- **What a request is about.** -/
inductive Target where
  | relation (name : Option String)
  | function (name : String)
deriving DecidableEq, Repr, Inhabited

namespace Target

/-- Whether the target is a function. -/
def isCall : Target → Bool
  | function _ => true
  | relation _ => false

/-- The relation, if the target is one and it has a name. -/
def relation? : Target → Option String
  | relation name => name
  | function _ => none

/-- The function, if the target is one. -/
def function? : Target → Option String
  | function name => some name
  | relation _ => none

/-- The target as JSON fields. -/
def fields : Target → List (String × Json)
  | relation name => Json.field? "from" (name.map .str)
  | function name => [("function", .str name)]

/-- The text without the slashes at its ends. -/
def trimSlashes (cs : List Char) : List Char :=
  ((cs.dropWhile (· == '/')).reverse.dropWhile (· == '/')).reverse

/-- The target that segments name. -/
def ofSegments : List (List Char) → Target
  | [] => relation none
  | [first] => if first = [] then relation none else relation (some (String.ofList first))
  | first :: second :: _ =>
    if first = "rpc".toList ∧ second ≠ [] then function (String.ofList second)
    else if first = [] then relation none
    else relation (some (String.ofList first))

/-- The target of an unescaped path. -/
def ofChars (path base : List Char) : Target :=
  ofSegments (Text.splitOn '/' (trimSlashes ((Text.dropLead? base path).getD path)))

/-- **The target that a path names**, below a base path. -/
def parse (path base : String) : Target := ofChars (Text.Percent.decode path.toList) base.toList

end Target

end ResourceQuery
