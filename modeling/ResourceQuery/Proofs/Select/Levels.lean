import Mathlib
import ResourceQuery.Proofs.Select.Said

/-! # Levels

A text says nodes, each embed with its own join. What is read keeps the entries of a level in their order,
and puts the joins and the labels of its embeds beside them: under each label, where it first came, what the
last embed with that label says.

* `Node.Becomes`, `Level`: what becomes of a node, and of a level, with all that is inside it.
* `walk?_aliasTree`: the tree of labels leads where the last embed with each label leads.
* `level_of_parse`: all that a text says becomes a level in this sense, whatever the text. -/

namespace ResourceQuery.Select

variable {α : Type}

/-- **The labels of a level's embeds**, each where it first comes. -/
def labels (items : List (Item α)) : List String := (Entries.keys (heads items)).eraseDups

/-- The join of the last node with a label. -/
def lastJoin? (label : String) (nodes : List Node) : Option Join :=
  Entries.get? label (nodes.filterMap Node.joinEntry?).reverse

/-- **What a text tells of a field**, part by part. The column is told beside an aggregate or a path, the
count of all rows apart, and otherwise only where it is not the label. -/
structure Field.Told (label : String) (f : Field) : Prop where
  column : ∀ c ∈ f.column, Unquoted c
  path : ∀ p ∈ f.path, Unquoted p ∧ ∃ rest, p.toList = '$' :: '.' :: rest
  preCast : ∀ c ∈ f.preCast, Unquoted c ∧ f.aggregate.isSome
  cast : ∀ c ∈ f.cast, Unquoted c
  named : f.aggregate.isSome ∨ f.path.isSome → f.column.isSome ∨ f = .rows f.cast
  unnamed : f.aggregate = none → f.path = none → f.column ≠ some label

/-- **What a text tells of a join.** -/
structure Join.Told (join : Join) : Prop where
  resource : ∀ r ∈ join.resource, Unquoted r
  hint : ∀ h ∈ join.hint, Unquoted h ∧ h ≠ "inner" ∧ h ≠ "left"

mutual
/-- **What becomes of a node**: an entry with the same parts. There is nothing beside the entries of an
embed yet; it has joins of its own if and only if it has embeds. -/
inductive Node.Becomes : Node → Item Unit → Prop where
  | star : Node.Becomes .star .star
  | column {name : String} (hname : Unquoted name) : Node.Becomes (.column name) (.column name)
  | field {label : String} {f : Field} (hlabel : Unquoted label) (hf : f.Told label) :
      Node.Becomes (.field label f) (.field label f)
  | embed {label : String} {join : Join} {spread : Bool} {nodes : List Node} {items : List (Item Unit)}
      {inner : Option JoinMap} (hlabel : Unquoted label) (hjoin : join.Told) (hne : items ≠ [])
      (hinner : inner.isSome ↔ labels items ≠ []) (hlevel : Level nodes items (inner.getD [])) :
      Node.Becomes (.embed label join spread nodes) (.embed label items () spread inner)

/-- **What becomes of a level**: an entry of each node, and a join under each label, that of the last
embed. -/
inductive Level : List Node → List (Item Unit) → JoinMap → Prop where
  | intro {nodes : List Node} {items : List (Item Unit)} {join : JoinMap}
      (hentries : List.Forall₂ Node.Becomes nodes items) (hkeys : Entries.keys join = labels items)
      (hlast : ∀ label, Entries.get? label join = lastJoin? label nodes) : Level nodes items join
end

/-! ## Entries and joins -/

theorem Field.WellFormed.told {label : String} {f : Field} (h : f.WellFormed label) : f.Told label := by
  cases h with
  | rows hcast =>
    exact ⟨by simp [Field.rows], by simp [Field.rows], by simp [Field.rows], hcast, fun _ => Or.inr rfl,
      by simp [Field.rows]⟩
  | @computed column path preCast aggregate cast hcolumn hpath hpreCast hcast haggregate =>
    refine ⟨?_, hpath, fun c hc => ⟨hpreCast c hc, haggregate ?_⟩, hcast, fun hnamed => Or.inl ?_, ?_⟩
    · intro c hc
      simp only [Field.computed] at hc
      split at hc
      · obtain rfl := Option.some.inj hc
        exact hcolumn
      · simp at hc
    · exact Option.isSome_of_mem hc
    · simp only [Field.computed] at hnamed ⊢
      rw [if_pos (Or.inr hnamed)]
      rfl
    · rintro rfl rfl
      by_cases hlabel : column = label
      · simp [Field.computed, hlabel]
      · simp [Field.computed, hlabel]

theorem JoinKind.ofWord?_eq_none_iff {word : String} :
    ofWord? word = none ↔ word ≠ "inner" ∧ word ≠ "left" := by
  unfold ofWord?
  by_cases hinner : word = "inner"
  · simp [hinner]
  · by_cases hleft : word = "left"
    · simp [hleft]
    · simp [hinner, hleft]

theorem Join.WellFormed.told {join : Join} (h : join.WellFormed) : join.Told :=
  ⟨h.resource, fun w hw => ⟨(h.hint w hw).1, JoinKind.ofWord?_eq_none_iff.mp (h.hint w hw).2⟩⟩

theorem keys_joinEntries (nodes : List Node) :
    Entries.keys (nodes.filterMap Node.joinEntry?) = Entries.keys (heads (itemsOf nodes)) := by
  induction nodes with
  | nil => simp [itemsOf]
  | cons n ns ih =>
    cases n <;>
      simpa [List.filterMap_cons, heads, itemsOf, Node.item, Node.joinEntry?, Item.head?, Entries.keys]
        using ih

theorem keys_joins (nodes : List Node) : Entries.keys (joins nodes) = labels (itemsOf nodes) := by
  rw [joins, Entries.keys_ofList, keys_joinEntries, labels]

theorem isSome_joins? (nodes : List Node) : (joins? nodes).isSome ↔ labels (itemsOf nodes) ≠ [] := by
  rw [← keys_joins, joins?]
  split <;> simp_all

theorem Level.of_becomes {nodes : List Node} (h : ∀ n ∈ nodes, n.Becomes n.item) :
    Level nodes (itemsOf nodes) (joins nodes) := by
  refine .intro ?_ (keys_joins nodes) fun label => Entries.get?_ofList label _
  rw [itemsOf_eq_map, List.forall₂_map_right_iff, List.forall₂_same]
  exact h

/-- **A well-formed node becomes its entry.** -/
theorem Node.WellFormed.becomes {n : Node} (h : n.WellFormed) : n.Becomes n.item := by
  induction h with
  | star => exact .star
  | column hname => exact .column hname
  | field hlabel hf => exact .field hlabel hf.told
  | @embed label join spread nodes hlabel hjoin _ hne _ ih =>
    refine .embed hlabel hjoin.told (itemsOf_ne_nil hne) (isSome_joins? nodes) ?_
    rw [getD_joins?]
    exact .of_becomes ih

/-! ## Labels -/

/-- What is inside an embed, under its label. -/
def Item.inner? : Item α → Option (String × List (Item α))
  | .embed label items _ _ _ => some (label, items)
  | _ => none

/-- What is inside the last embed with a label. -/
def lastInner? (label : String) (items : List (Item α)) : Option (List (Item α)) :=
  Entries.get? label (items.filterMap Item.inner?).reverse

/-- **The level that a path of labels leads to**, where of several embeds with a label the last one
counts. -/
def follow? : List String → List (Item α) → Option (List (Item α))
  | [], items => some items
  | label :: path, items => (lastInner? label items).bind (follow? path)

/-- The nodes of an embed, under its label. -/
def Node.inner? : Node → Option (String × List Node)
  | .embed label _ _ nodes => some (label, nodes)
  | _ => none

theorem Node.aliasEntry?_eq (n : Node) : n.aliasEntry? = n.inner?.map fun e => (e.1, aliasTree e.2) := by
  cases n <;> simp [inner?, aliasEntry?, aliasTree]

theorem Node.inner?_item (n : Node) : n.item.inner? = n.inner?.map fun e => (e.1, itemsOf e.2) := by
  cases n <;> simp [Node.item, inner?, Item.inner?]

theorem keys_aliasEntries (nodes : List Node) :
    Entries.keys (aliasEntries nodes) = Entries.keys (heads (itemsOf nodes)) := by
  induction nodes with
  | nil => simp [aliasEntries, itemsOf]
  | cons n ns ih =>
    cases n <;>
      simpa [aliasEntries, List.filterMap_cons, heads, itemsOf, Node.item, Node.aliasEntry?, Item.head?,
        Entries.keys] using ih

theorem keys_aliasTree (nodes : List Node) :
    Entries.keys (aliasTree nodes).children = labels (itemsOf nodes) := by
  rw [aliasTree, AliasTree.children, Entries.keys_ofList, keys_aliasEntries, labels]

/-- The tree under a label is that of the last embed. -/
theorem get?_aliasTree (label : String) (nodes : List Node) :
    (aliasTree nodes).get? label =
      (Entries.get? label (nodes.filterMap Node.inner?).reverse).map aliasTree := by
  rw [AliasTree.get?, aliasTree, AliasTree.children, Entries.get?_ofList, aliasEntries_eq_filterMap,
    funext Node.aliasEntry?_eq, ← List.map_filterMap, ← List.map_reverse, Entries.get?_map_snd]

theorem lastInner?_itemsOf (label : String) (nodes : List Node) :
    lastInner? label (itemsOf nodes) =
      (Entries.get? label (nodes.filterMap Node.inner?).reverse).map itemsOf := by
  have hinner : Item.inner? ∘ Node.item = fun n => n.inner?.map fun e => (e.1, itemsOf e.2) :=
    funext Node.inner?_item
  rw [lastInner?, itemsOf_eq_map, List.filterMap_map, hinner, ← List.map_filterMap, ← List.map_reverse,
    Entries.get?_map_snd]

/-- **The tree of labels leads where the last embed with each label leads**, and has the labels there. -/
theorem walk?_aliasTree (path : List String) (nodes : List Node) :
    ((aliasTree nodes).walk? path).map (fun t => Entries.keys t.children) =
      (follow? path (itemsOf nodes)).map labels := by
  induction path generalizing nodes with
  | nil => simp [AliasTree.walk?, follow?, keys_aliasTree]
  | cons label path ih =>
    rw [AliasTree.walk?, follow?, get?_aliasTree, lastInner?_itemsOf]
    cases Entries.get? label (nodes.filterMap Node.inner?).reverse with
    | none => rfl
    | some inner => exact ih inner

/-! ## What is read -/

/-- **What a text says becomes a level**, whatever the text, with the tree of its labels, and its embeds stand
at most so deep inside one another as is allowed. -/
theorem level_of_parse {text : Option String} {sel : Selection} (h : parse text = .ok sel) :
    ∃ nodes, nodesOf (text.getD "") = .ok nodes ∧ Level nodes sel.items sel.join ∧
      (∀ path, (sel.aliases.walk? path).map (fun t => Entries.keys t.children) =
        (follow? path sel.items).map labels) ∧
      depthOf sel.items ≤ maxNesting := by
  obtain ⟨nodes, hnodes, rfl⟩ := Refusal.map_eq_ok.mp h
  have hwf := wellFormed_of_nodesOf hnodes
  exact ⟨nodes, hnodes, .of_becomes fun n hn => (hwf n hn).1.becomes,
    fun path => walk?_aliasTree path nodes, depthOf_le_of_nodesOf hnodes⟩

/-- Two embeds share a label; the tree leads into the last. -/
theorem level_of_parse_shared :
    let text := "b:o!h(x),n:d->\"k k\"->x.sum(),...b(c(*),count())"
    ∃ sel, parse (some text) = .ok sel ∧ ∃ nodes, nodesOf text = .ok nodes ∧
      Level nodes sel.items sel.join ∧
      (∀ path, (sel.aliases.walk? path).map (fun t => Entries.keys t.children) =
        (follow? path sel.items).map labels) ∧
      depthOf sel.items ≤ maxNesting := by
  intro text
  have h : parse (some text) = .ok (.ofNodes
      [.embed "b" ⟨some "o", .left, some "h"⟩ false [.column "x"],
        .field "n" ⟨some "d", some "$.k k.x", none, some .sum, none⟩,
        .embed "b" .plain true [.embed "c" .plain false [.star], .field "count" (.rows none)]]) := by
    cbv
  obtain ⟨nodes, hnodes, hlevel⟩ := level_of_parse h
  exact ⟨_, h, nodes, hnodes, hlevel⟩

example : labels (itemsOf [.embed "b" .plain false [.star], .embed "a" .plain false [.star],
    .embed "b" .plain true [.star]]) = ["b", "a"] := by
  decide

end ResourceQuery.Select
