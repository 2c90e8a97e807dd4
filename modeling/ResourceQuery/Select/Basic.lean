import ResourceQuery.Entries
import ResourceQuery.Select.Aliases

/-! # Select lists

What a request selects: all columns, a column, a computed field under a label, or a related resource
embedded under a label, with a select list of its own.

The same list has three forms.

* `Select.Node` is what the text says: each embed carries its own join and its own nodes.
* `Select.Item` is what a statement carries: the joins of a level stand beside the list, in a map by
  label, and an embed has room for a note, by which a statement attaches conditions to it.
* `AliasTree` holds the labels alone; the keys of query parameters are routed by it.

A label that comes again in a level keeps its place in the map and in the tree, with the last join and
the last subtree (`joins`, `aliasTree`). -/

namespace ResourceQuery.Select

/-- The functions over a column. -/
inductive Aggregate where
  | count | sum | avg | min | max
deriving DecidableEq, Repr

namespace Aggregate

/-- The function a word names. -/
def ofWord? (word : String) : Option Aggregate :=
  if word = "count" then some count
  else if word = "sum" then some sum
  else if word = "avg" then some avg
  else if word = "min" then some min
  else if word = "max" then some max
  else none

/-- The word of a function. -/
def word : Aggregate → String
  | count => "count"
  | sum => "sum"
  | avg => "avg"
  | min => "min"
  | max => "max"

theorem ofWord?_word (a : Aggregate) : ofWord? a.word = some a := by cases a <;> decide

end Aggregate

/-- **What a computed field is computed from.** The column is left out where it is the label itself; an
aggregate and a path into a document always name theirs, except the count of all rows. One cast applies
before the aggregate, one to the result. -/
structure Field where
  column : Option String
  path : Option String
  preCast : Option String
  aggregate : Option Aggregate
  cast : Option String
deriving DecidableEq, Repr

/-- A field with nothing said about it. -/
def Field.plain : Field := ⟨none, none, none, none, none⟩

/-- Whether rows without a related row are kept. -/
inductive JoinKind where
  | left
  | inner
deriving DecidableEq, Repr

namespace JoinKind

/-- The kind a word names. -/
def ofWord? (word : String) : Option JoinKind :=
  if word = "inner" then some inner else if word = "left" then some left else none

end JoinKind

/-- **How an embedded resource is joined**: the resource, where the label is another name for it, and the
relationship, where there are several. -/
structure Join where
  resource : Option String
  kind : JoinKind
  hint : Option String
deriving DecidableEq, Repr

/-- A join with nothing said about it. -/
def Join.plain : Join := ⟨none, .left, none⟩

/-- The joins of a level, by label. -/
abbrev JoinMap := List (String × Join)

/-- **An entry of a select list, as the text says it.** -/
inductive Node where
  | star
  | column (name : String)
  | field (label : String) (field : Field)
  | embed (label : String) (join : Join) (spread : Bool) (nodes : List Node)
deriving Inhabited

/-- **An entry of a select list, as a statement carries it.** A spread embed puts its columns into the
row of its parent. -/
inductive Item (α : Type) where
  | star
  | column (name : String)
  | field (label : String) (field : Field)
  | embed (label : String) (items : List (Item α)) (note : α) (spread : Bool) (join : Option JoinMap)
deriving Inhabited

/-- The name of an entry in the result. -/
def Item.name {α : Type} : Item α → String
  | star => "*"
  | column name => name
  | field label _ => label
  | embed label _ _ _ _ => label

/-- **A select list with the joins and labels of its outermost level.** -/
structure Selection where
  items : List (Item Unit)
  join : JoinMap
  aliases : AliasTree

/-! ## From nodes to items -/

/-- The join of an embed, under its label. -/
def Node.joinEntry? : Node → Option (String × Join)
  | .embed label join _ _ => some (label, join)
  | _ => none

/-- **The joins of a level.** -/
def joins (nodes : List Node) : JoinMap := Entries.ofList (nodes.filterMap Node.joinEntry?)

/-- The joins of a level, if it has any. -/
def joins? (nodes : List Node) : Option JoinMap :=
  match joins nodes with
  | [] => none
  | e :: es => some (e :: es)

mutual
/-- The entry of a node. -/
def Node.item : Node → Item Unit
  | .star => .star
  | .column name => .column name
  | .field label field => .field label field
  | .embed label _ spread nodes => .embed label (itemsOf nodes) () spread (joins? nodes)

/-- **The entries of a level.** -/
def itemsOf : List Node → List (Item Unit)
  | [] => []
  | n :: ns => n.item :: itemsOf ns
end

mutual
/-- The labels inside an embed, under its own. -/
def Node.aliasEntry? : Node → Option (String × AliasTree)
  | .embed label _ _ nodes => some (label, .node (Entries.ofList (aliasEntries nodes)))
  | _ => none

/-- The labels of a level's embeds, each with those inside it. -/
def aliasEntries : List Node → List (String × AliasTree)
  | [] => []
  | n :: ns =>
    match n.aliasEntry? with
    | some e => e :: aliasEntries ns
    | none => aliasEntries ns
end

/-- **The labels of a level**, in a tree. -/
def aliasTree (nodes : List Node) : AliasTree := .node (Entries.ofList (aliasEntries nodes))

/-- The select list that the nodes say. -/
def Selection.ofNodes (nodes : List Node) : Selection := ⟨itemsOf nodes, joins nodes, aliasTree nodes⟩

theorem itemsOf_eq_map (nodes : List Node) : itemsOf nodes = nodes.map Node.item := by
  induction nodes with
  | nil => simp [itemsOf]
  | cons n ns ih => simp [itemsOf, ih]

theorem aliasEntries_eq_filterMap (nodes : List Node) :
    aliasEntries nodes = nodes.filterMap Node.aliasEntry? := by
  induction nodes with
  | nil => simp [aliasEntries]
  | cons n ns ih => cases h : n.aliasEntry? <;> simp [aliasEntries, h, ih]

/-! ## Equality of items -/

/-- Whether the joins of two levels are the same, in whatever order. -/
def sameJoins : Option JoinMap → Option JoinMap → Bool
  | none, none => true
  | some join, some join' => Entries.sameMap join join'
  | _, _ => false

mutual
/-- Whether two entries are the same. -/
def Item.same : Item Unit → Item Unit → Bool
  | .star, .star => true
  | .column m, .column n => m == n
  | .field m f, .field n g => m == n && f == g
  | .embed m is _ s j, .embed n js _ t k => m == n && sameItems is js && s == t && sameJoins j k
  | _, _ => false

/-- Whether two lists of entries are the same. -/
def sameItems : List (Item Unit) → List (Item Unit) → Bool
  | [], [] => true
  | i :: is, j :: js => i.same j && sameItems is js
  | _, _ => false
end

end ResourceQuery.Select
