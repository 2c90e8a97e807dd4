import ResourceQuery.Select.Basic
import ResourceQuery.Text.Word

/-! # Select lists, written

The text of a list of entries and the joins of its level. A name is written bare if it is a word and in
quotes otherwise; a label is written where the text would not imply it, and always before a field that
says nothing else, since without it that would be a plain column. Paths are written with single-headed
arrows. -/

namespace ResourceQuery.Select

/-- **A name**, bare if it is a word. -/
def identText (name : String) : List Char :=
  if name ≠ "" ∧ name.toList.all Text.isWordChar then name.toList
  else '"' :: name.toList ++ ['"']

/-- A cast, if there is one. -/
def castText : Option String → List Char
  | some t => ':' :: ':' :: identText t
  | none => []

/-- The text after every `$.` it starts with. -/
def dropRoot : List Char → List Char
  | '$' :: '.' :: cs => dropRoot cs
  | cs => cs

/-- The keys of a path. -/
def pathKeys : Option String → List (List Char)
  | some path => Text.splitOn '.' (dropRoot path.toList)
  | none => []

/-- The label that a field's text implies: the last key of its path, or its column. -/
def impliedLabel (column : String) (keys : List (List Char)) : String :=
  match keys.getLast? with
  | some k => String.ofList k
  | none => column

/-- What a field applies to its column. -/
def tailText (f : Field) : List Char :=
  match f.aggregate with
  | some a => castText f.preCast ++ '.' :: a.word.toList ++ ['(', ')'] ++ castText f.cast
  | none => castText f.cast

/-- **A field** under its label. -/
def fieldText (label : String) (f : Field) : List Char :=
  if f.aggregate = some .count ∧ f.column = none then
    (if label ≠ "count" then identText label ++ [':'] else []) ++ "count()".toList ++ castText f.cast
  else
    let column := f.column.getD label
    let keys := pathKeys f.path
    (if label ≠ impliedLabel column keys ∨ f = .plain then identText label ++ [':'] else []) ++
      identText column ++ keys.flatMap (fun k => '-' :: '>' :: identText (String.ofList k)) ++
      tailText f

/-- How an embed is joined. -/
def modifiersText (join : Join) : List Char :=
  (match join.hint with
    | some hint => '!' :: identText hint
    | none => []) ++
  match join.kind with
    | .inner => "!inner".toList
    | .left => []

/-- **What precedes the parenthesis of an embed**: three points for a spread, otherwise its label and,
where they differ, its resource. -/
def embedHead (label : String) (spread : Bool) (join : Join) : List Char :=
  (if spread then '.' :: '.' :: '.' :: identText label
    else match join.resource with
      | some resource => identText label ++ ':' :: identText resource
      | none => identText label) ++ modifiersText join

/-- The join of a label; one that is not in the map says nothing. -/
def joinOf (join : JoinMap) (label : String) : Join := (Entries.get? label join).getD .plain

variable {α : Type}

mutual
/-- The text of an entry. -/
def itemText (join : JoinMap) : Item α → List Char
  | .star => ['*']
  | .column name => identText name
  | .field label f => fieldText label f
  | .embed label items _ spread inner =>
    embedHead label spread (joinOf join label) ++ '(' :: itemsText (inner.getD []) items ++ [')']

/-- The text of entries, with commas between them. -/
def itemsText (join : JoinMap) : List (Item α) → List Char
  | [] => []
  | i :: is => itemText join i ++ itemsTailText join is

/-- The text of further entries, a comma before each. -/
def itemsTailText (join : JoinMap) : List (Item α) → List Char
  | [] => []
  | i :: is => ',' :: itemText join i ++ itemsTailText join is
end

/-- **The text of a select list.** -/
def render (items : List (Item α)) (join : JoinMap) : String := String.ofList (itemsText join items)

end ResourceQuery.Select
