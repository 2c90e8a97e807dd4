import ResourceQuery.Entries
import ResourceQuery.Text.Split
import ResourceQuery.Text.Word

/-! # Filter operators

The words of the filter language and the operators they name. A word may carry an argument in
parentheses: `any` and `all` quantify a comparison over a list, and a text search takes the name of its
configuration. Whatever else is in parentheses names no operator.

* `Comparison.tokens`: the words that name comparisons.
* `Operator.name`: the key of an operator in an operator map. -/

namespace ResourceQuery

/-- **Comparisons**, each with a word of its own. -/
inductive Comparison where
  | eq | neq | gt | gte | lt | lte | like | ilike | regex | iregex | is | isDistinct | inList
  | contains | containedBy | overlaps | rangeLt | rangeGt | rangeGte | rangeLte | rangeAdjacent
deriving DecidableEq, Repr

namespace Comparison

/-- The words and what they name. -/
def tokens : List (String × Comparison) := [
  ("eq", .eq), ("neq", .neq), ("gt", .gt), ("gte", .gte), ("lt", .lt), ("lte", .lte),
  ("like", .like), ("ilike", .ilike), ("match", .regex), ("imatch", .iregex), ("is", .is),
  ("isdistinct", .isDistinct), ("in", .inList), ("cs", .contains), ("cd", .containedBy),
  ("ov", .overlaps), ("sl", .rangeLt), ("sr", .rangeGt), ("nxl", .rangeGte), ("nxr", .rangeLte),
  ("adj", .rangeAdjacent)]

/-- The comparison a word names. -/
def ofToken? (word : String) : Option Comparison := Entries.get? word tokens

/-- The name of a comparison in an operator map. -/
def name : Comparison → String
  | eq => "$eq" | neq => "$neq" | gt => "$gt" | gte => "$gte" | lt => "$lt" | lte => "$lte"
  | like => "$like" | ilike => "$ilike" | regex => "$regex" | iregex => "$iregex" | is => "$is"
  | isDistinct => "$isDistinct" | inList => "$in" | contains => "$contains"
  | containedBy => "$containedBy" | overlaps => "$overlaps" | rangeLt => "$rangeLt"
  | rangeGt => "$rangeGt" | rangeGte => "$rangeGte" | rangeLte => "$rangeLte"
  | rangeAdjacent => "$rangeAdjacent"

/-- Comparisons of ranges, whose operand is a range's text. -/
def isRange : Comparison → Bool
  | rangeLt | rangeGt | rangeGte | rangeLte | rangeAdjacent => true
  | _ => false

/-- Comparisons of sets, whose operand may be an array, an object or a range. -/
def isContainment : Comparison → Bool
  | contains | containedBy | overlaps => true
  | _ => false

end Comparison

/-- Over a list of operands. -/
inductive Quantifier where
  | any
  | all
deriving DecidableEq, Repr

namespace Quantifier

/-- The quantifier an argument names. -/
def ofArgument? (arg : String) : Option Quantifier :=
  if arg = "any" then some .any else if arg = "all" then some .all else none

/-- The end of a quantified operator's name. -/
def ending : Quantifier → String
  | any => "Any"
  | all => "All"

end Quantifier

/-- How the query of a text search is read. -/
inductive SearchKind where
  | plain
  | phrase
  | websearch
deriving DecidableEq, Repr

namespace SearchKind

/-- The words for a text search and the kind each implies. -/
def tokens : List (String × Option SearchKind) := [
  ("fts", none), ("plfts", some .plain), ("phfts", some .phrase), ("wfts", some .websearch)]

/-- The kind a word for a text search implies. -/
def ofToken? (word : String) : Option (Option SearchKind) := Entries.get? word tokens

/-- The kind as it is written. -/
def name : SearchKind → String
  | plain => "plain"
  | phrase => "phrase"
  | websearch => "websearch"

end SearchKind

/-- **A key of an operator map.** -/
inductive Operator where
  | comparison (c : Comparison)
  | quantified (c : Comparison) (q : Quantifier)
  | notIn
  | textSearch
  | not
deriving DecidableEq, Repr

namespace Operator

/-- The operator as it is written. -/
def name : Operator → String
  | comparison c => c.name
  | quantified c q => c.name ++ q.ending
  | notIn => "$notIn"
  | textSearch => "$textSearch"
  | not => "$not"

end Operator

/-- **A word of the filter language**, with its argument. -/
inductive OperatorToken where
  | comparison (c : Comparison)
  | quantified (c : Comparison) (q : Quantifier)
  | textSearch (kind : Option SearchKind) (config : Option String)
deriving DecidableEq, Repr

namespace OperatorToken

/-- A word and its argument: `word` or `word(argument)`, neither of them empty. -/
def split? (cs : List Char) : Option (String × Option String) :=
  let w := Text.spanWord cs
  if w.1 = [] then none
  else match w.2 with
    | [] => some (String.ofList w.1, none)
    | '(' :: r =>
      let arg := r.takeWhile (· != ')')
      if arg = [] ∨ r.dropWhile (· != ')') ≠ [')'] then none
      else some (String.ofList w.1, some (String.ofList arg))
    | _ => none

/-- What a word with an argument names. A quantifier applies to comparisons only, any other argument
to text searches only. -/
def resolve? (word : String) (arg : Option String) : Option OperatorToken :=
  match arg.bind Quantifier.ofArgument? with
  | some q => (Comparison.ofToken? word).map (.quantified · q)
  | none =>
    match SearchKind.ofToken? word with
    | some kind => some (.textSearch kind arg)
    | none =>
      match arg with
      | some _ => none
      | none => (Comparison.ofToken? word).map .comparison

/-- The operator word that the characters spell. -/
def ofChars? (cs : List Char) : Option OperatorToken := (split? cs).bind fun p => resolve? p.1 p.2

/-- **The operator word that a text spells.** -/
def parse? (s : String) : Option OperatorToken := ofChars? s.toList

/-- The key in an operator map. -/
def operator : OperatorToken → Operator
  | comparison c => .comparison c
  | quantified c q => .quantified c q
  | textSearch _ _ => .textSearch

end OperatorToken

/-- **Whether a value looks like a filter**: the text before its first point, less a quantifier, is `not`
or a word of the filter language. -/
def looksLikeFilter (value : String) : Bool :=
  match Text.splitOnce '.' value.toList with
  | none => false
  | some (lead, _) =>
    let word := match Text.dropTail? "(any)".toList lead with
      | some w => w
      | none => (Text.dropTail? "(all)".toList lead).getD lead
    let word := String.ofList word
    word == "not" || (Comparison.ofToken? word).isSome || (SearchKind.ofToken? word).isSome

end ResourceQuery
