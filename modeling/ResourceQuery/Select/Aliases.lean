import ResourceQuery.Entries
import ResourceQuery.Text.Split

/-! # Labels of embedded resources

The labels of the embeds in a select list, each with the labels inside it. A key of the form
`orders.lines.price` is routed by this tree: as long as the part before the first point is a label of
the level reached, it leads into that embed; what is left is the key there.

* `splitParts_append`: the labels followed by what is left are the parts of the key.
* `splitParts_chain`: the labels lead from the root to a level of the tree, and what is left is one
  part, or does not start with a label of that level. -/

namespace ResourceQuery

/-- **Labels by level.** -/
inductive AliasTree where
  | node (children : List (String × AliasTree))
deriving Inhabited

namespace AliasTree

/-- A level without embeds. -/
def empty : AliasTree := .node []

/-- The labels of the level, with what is inside each. -/
def children : AliasTree → List (String × AliasTree)
  | .node cs => cs

/-- The labels inside an embed of the level. -/
def get? (label : String) (t : AliasTree) : Option AliasTree := Entries.get? label t.children

/-- Whether the level has an embed with this label. -/
def contains (label : String) (t : AliasTree) : Bool := Entries.contains label t.children

/-- An embed added to the level; one with the same label is replaced in its place. -/
def insert (t : AliasTree) (label : String) (inner : AliasTree) : AliasTree :=
  .node (Entries.insert label inner t.children)

/-- The level that a path of labels leads to. -/
def walk? : List String → AliasTree → Option AliasTree
  | [], t => some t
  | l :: ls, t => (get? l t).bind (walk? ls)

/-- The labels that a key's parts start with, and the parts that are left. The last part is never a
label. -/
def splitParts (t : AliasTree) : List (List Char) → List String × List (List Char)
  | [] => ([], [])
  | [p] => ([], [p])
  | p :: q :: ps =>
    match get? (String.ofList p) t with
    | some inner => (splitParts inner (q :: ps)).map (String.ofList p :: ·) id
    | none => ([], p :: q :: ps)

/-- **The path and the key there** that a dotted key stands for. -/
def split (t : AliasTree) (key : String) : List String × String :=
  let r := splitParts t (Text.splitOn '.' key.toList)
  (r.1, String.ofList (Text.joinWith ['.'] r.2))

/-! ## The parts of a key -/

theorem splitParts_append (t : AliasTree) (ps : List (List Char)) :
    (splitParts t ps).1.map String.toList ++ (splitParts t ps).2 = ps := by
  fun_induction splitParts t ps <;> simp_all

theorem splitParts_ne_nil (t : AliasTree) {ps : List (List Char)} (h : ps ≠ []) :
    (splitParts t ps).2 ≠ [] := by
  fun_induction splitParts t ps <;> simp_all

theorem splitParts_chain (t : AliasTree) (ps : List (List Char)) :
    ∃ u, walk? (splitParts t ps).1 t = some u ∧
      ∀ p q qs, (splitParts t ps).2 = p :: q :: qs → get? (String.ofList p) u = none := by
  fun_induction splitParts t ps with
  | case1 t => exact ⟨t, rfl, by simp⟩
  | case2 t p => exact ⟨t, rfl, by simp⟩
  | case3 t p q ps inner hget ih =>
    obtain ⟨u, hu, hm⟩ := ih
    exact ⟨u, by simp [walk?, hget, hu], hm⟩
  | case4 t p q ps hget =>
    refine ⟨t, rfl, ?_⟩
    intro p' q' qs hp
    simp only [List.cons.injEq] at hp
    rw [← hp.1]
    exact hget

end AliasTree

end ResourceQuery
