import Mathlib
import ResourceQuery.Proofs.Select.Said

/-! # Written and read again

The text of a list that was read is read again, with the same joins and the same labels
(`reread_of_parse`): of the joins of a level only the last one under each label is written, which is the
one that counts.

The entries come back as they were exactly if they are faithful, that is, if there is neither a column
called `count` that nothing else is said about nor a path that goes on with a second `$.`. Texts say both:
`count` before a blank that is no layout, and a key called `$`. -/

namespace ResourceQuery.Select

variable {α : Type}

/-- **A field that its text says as it is.** -/
structure Field.Faithful (label : String) (f : Field) : Prop where
  count : ¬(f.path = none ∧ f.aggregate = none ∧ f.column.getD label = "count")
  root : ∀ p ∈ f.path, ∀ rest, p.toList ≠ '$' :: '.' :: '$' :: '.' :: rest

/-- **An entry that its text says as it is**, with all that is inside it. -/
inductive Item.Faithful : Item α → Prop where
  | star : Item.Faithful .star
  | column {name : String} (h : name ≠ "count") : Item.Faithful (.column name)
  | field {label : String} {f : Field} (h : f.Faithful label) : Item.Faithful (.field label f)
  | embed {label : String} {items : List (Item α)} {note : α} {spread : Bool}
      {join : Option JoinMap} (h : ∀ i ∈ items, Item.Faithful i) :
      Item.Faithful (.embed label items note spread join)

/-! ## Fields -/

theorem dropRoot_eq_self {cs : List Char} :
    dropRoot cs = cs ↔ ∀ rest, cs ≠ '$' :: '.' :: rest := by
  constructor
  · rintro h rest rfl
    have hlength := (dropRoot_suffix rest).length_le
    have := congrArg List.length h
    rw [dropRoot] at this
    simp only [List.length_cons] at this
    omega
  · intro h
    unfold dropRoot
    split
    · exact absurd rfl (h _)
    · rfl

theorem pathText_pathKeys {p : String} {rest : List Char} (h : p.toList = '$' :: '.' :: rest) :
    pathText ((pathKeys (some p)).map String.ofList) = p ↔ ∀ r, rest ≠ '$' :: '.' :: r := by
  have hsaid : (pathText ((pathKeys (some p)).map String.ofList)).toList =
      '$' :: '.' :: dropRoot rest := by
    have hid : (String.toList ∘ String.ofList : List Char → List Char) = id := by
      funext cs
      exact String.toList_ofList
    rw [pathText, String.toList_ofList, List.map_map, hid, List.map_id, pathKeys,
      Text.joinWith_splitOn, h, dropRoot]
  rw [← String.toList_inj, hsaid, h, List.cons.injEq, List.cons.injEq, dropRoot_eq_self]
  simp

theorem Field.said_eq_self {label : String} {f : Field} (hf : f.WellFormed label) :
    f.said label = f ↔ f.Faithful label := by
  cases hf with
  | rows hcast =>
    exact ⟨fun _ => ⟨by simp [rows], by simp [rows]⟩, fun _ => said_rows label _⟩
  | @computed column path preCast aggregate cast hcolumn hpath =>
    have hgetD := getD_column_computed label column path preCast aggregate cast
    rw [said_computed]
    by_cases hcount : path = none ∧ aggregate = none ∧ column = "count"
    · rw [if_pos hcount]
      constructor
      · intro heq
        have := congrArg Field.aggregate heq
        simp [rows, computed, hcount.2.1] at this
      · rintro ⟨h, -⟩
        rw [hgetD] at h
        exact absurd hcount h
    · rw [if_neg hcount]
      have hroot : (path.map fun _ => pathText ((pathKeys path).map String.ofList)) = path ↔
          ∀ p ∈ path, ∀ rest, p.toList ≠ '$' :: '.' :: '$' :: '.' :: rest := by
        cases path with
        | none => simp
        | some p =>
          obtain ⟨-, rest, hrest⟩ := hpath p rfl
          simp only [Option.map_some, Option.some.injEq, Option.mem_def, forall_eq',
            pathText_pathKeys hrest, hrest, ne_eq, List.cons.injEq, true_and]
      constructor
      · intro heq
        exact ⟨by rwa [hgetD], hroot.mp (congrArg Field.path heq)⟩
      · rintro ⟨-, h⟩
        rw [hroot.mpr h]

/-! ## Joins and labels -/

/-- The nodes that the text of a list of nodes says. -/
def reread (nodes : List Node) : List Node := saidAll (joins nodes) (itemsOf nodes)

theorem reread_eq_map (nodes : List Node) :
    reread nodes = nodes.map fun n => n.item.said (joins nodes) := by
  rw [reread, saidAll_eq_map, itemsOf_eq_map, List.map_map]
  rfl

/-- The label of an embed, its join and whether it is spread. -/
def Node.head? : Node → Option (String × Join × Bool)
  | .embed label join spread _ => some (label, join, spread)
  | _ => none

theorem Node.joinEntry?_eq (n : Node) : n.joinEntry? = n.head?.map fun h => (h.1, h.2.1) := by
  cases n <;> rfl

theorem Node.joinEntry?_said (join : JoinMap) (n : Node) :
    Node.joinEntry? (n.item.said join) = n.head?.map fun h => (h.1, (joinOf join h.1).said h.2.2) := by
  rw [Item.joinEntry?_said]
  cases n <;> rfl

/-- **The joins of a level come back.** Only the last one under each label matters. -/
theorem joins_reread {nodes : List Node} (h : ∀ n ∈ nodes, n.WellFormed) :
    joins (reread nodes) = joins nodes := by
  have hjoins : joins nodes =
      Entries.ofList ((nodes.filterMap Node.head?).map fun h => (h.1, h.2.1)) := by
    rw [joins, List.map_filterMap, ← funext Node.joinEntry?_eq]
  have hreread : joins (reread nodes) = Entries.ofList ((nodes.filterMap Node.head?).map
      fun h => (h.1, (joinOf (joins nodes) h.1).said h.2.2)) := by
    rw [joins, reread_eq_map, List.filterMap_map, List.map_filterMap]
    simp only [Function.comp_def, Node.joinEntry?_said]
  rw [hreread, hjoins]
  refine Entries.ofList_map_congr _ _ fun hd hmem hlast => ?_
  -- the join under the label is the one of this embed
  have hjoin : joinOf (joins nodes) hd.1 = hd.2.1 := by
    unfold joinOf
    rw [hjoins, hlast]
    rfl
  rw [← hjoins, hjoin]
  obtain ⟨n, hn, hhead⟩ := List.mem_filterMap.mp hmem
  cases h n hn with
  | star => simp [Node.head?] at hhead
  | column => simp [Node.head?] at hhead
  | field => simp [Node.head?] at hhead
  | @embed label join spread inner hlabel hwf hspread =>
    simp only [Node.head?, Option.some.injEq] at hhead
    subst hhead
    cases spread with
    | false => rfl
    | true =>
      obtain ⟨resource, kind, hint⟩ := join
      obtain rfl : resource = none := hspread rfl
      rfl

theorem aliasTree_eq {nodes nodes' : List Node}
    (h : nodes.filterMap Node.aliasEntry? = nodes'.filterMap Node.aliasEntry?) :
    aliasTree nodes = aliasTree nodes' := by
  rw [aliasTree, aliasTree, aliasEntries_eq_filterMap, aliasEntries_eq_filterMap, h]

theorem Node.aliasEntry?_said {n : Node} (h : n.WellFormed) (join : JoinMap) :
    Node.aliasEntry? (n.item.said join) = n.aliasEntry? := by
  induction h generalizing join with
  | star => simp [Node.item, Item.said, aliasEntry?]
  | @column name hname =>
    rw [Node.item, Item.said]
    split <;> simp [Node.aliasEntry?]
  | field hlabel hf => simp [Node.item, Item.said, aliasEntry?]
  | @embed label join' spread nodes hlabel hjoin hspread hne hnodes ih =>
    have hinner : (saidAll (joins nodes) (itemsOf nodes)).filterMap aliasEntry? =
        nodes.filterMap aliasEntry? := by
      rw [show saidAll (joins nodes) (itemsOf nodes) = _ from reread_eq_map nodes,
        List.filterMap_map]
      exact List.filterMap_congr fun n hn => ih n hn (joins nodes)
    simp only [Node.item, Item.said, aliasEntry?, getD_joins?, aliasEntries_eq_filterMap, hinner]

theorem aliasTree_reread {nodes : List Node} (h : ∀ n ∈ nodes, n.WellFormed) :
    aliasTree (reread nodes) = aliasTree nodes := by
  refine aliasTree_eq ?_
  rw [reread_eq_map, List.filterMap_map]
  exact List.filterMap_congr fun n hn => Node.aliasEntry?_said (h n hn) (joins nodes)

/-! ## Entries -/

theorem itemsOf_reread {nodes : List Node} (h : ∀ n ∈ nodes, ∀ join,
      (n.item.said join).item = n.item ↔ n.item.Faithful) :
    itemsOf (reread nodes) = itemsOf nodes ↔ ∀ i ∈ itemsOf nodes, i.Faithful := by
  rw [reread_eq_map, itemsOf_eq_map, itemsOf_eq_map, List.map_map, List.map_inj_left]
  constructor
  · intro heq i hi
    obtain ⟨n, hn, rfl⟩ := List.mem_map.mp hi
    exact (h n hn _).mp (heq n hn)
  · intro hall n hn
    exact (h n hn _).mpr (hall _ (List.mem_map_of_mem hn))

/-- **An entry comes back as it was exactly if it is faithful.** -/
theorem Node.item_said {n : Node} (h : n.WellFormed) (join : JoinMap) :
    (n.item.said join).item = n.item ↔ n.item.Faithful := by
  induction h generalizing join with
  | star => exact ⟨fun _ => .star, fun _ => rfl⟩
  | @column name hname =>
    rw [Node.item, Item.said]
    by_cases hcount : name = "count"
    · rw [if_pos hcount]
      constructor
      · intro heq
        simp [Node.item] at heq
      · rintro ⟨⟩
        contradiction
    · rw [if_neg hcount]
      exact ⟨fun _ => .column hcount, fun _ => rfl⟩
  | @field label f hlabel hf =>
    rw [Node.item, Item.said, Node.item, Item.field.injEq, Field.said_eq_self hf]
    constructor
    · rintro ⟨-, h⟩
      exact .field h
    · rintro ⟨⟩
      exact ⟨rfl, by assumption⟩
  | @embed label join' spread nodes hlabel hjoin hspread hne hnodes ih =>
    have hitems := itemsOf_reread ih
    have hjoins : joins? (reread nodes) = joins? nodes := by
      rw [joins?, joins?, joins_reread hnodes]
    rw [Node.item, Item.said, Node.item, getD_joins?]
    rw [show saidAll (joins nodes) (itemsOf nodes) = reread nodes from rfl, hjoins]
    constructor
    · intro heq
      simp only [Item.embed.injEq, true_and, and_true] at heq
      exact .embed (hitems.mp heq)
    · intro hfaithful
      cases hfaithful with
      | embed h => rw [hitems.mpr h]

/-! ## Texts -/

/-- **A select list that was read is read again from its text**, with the same joins and the same labels,
and with the same entries exactly if they are faithful. -/
theorem reread_of_parse {text : Option String} {sel : Selection} (h : parse text = .ok sel) :
    ∃ sel', parse (some (render sel.items sel.join)) = .ok sel' ∧
      sel'.join = sel.join ∧ sel'.aliases = sel.aliases ∧
      (sel'.items = sel.items ↔ ∀ i ∈ sel.items, i.Faithful) := by
  obtain ⟨nodes, hnodes, rfl⟩ := Refusal.map_eq_ok.mp h
  have hwf := wellFormed_of_nodesOf hnodes
  have hnodes : ∀ n ∈ nodes, n.WellFormed := fun n hn => (hwf n hn).1
  have hdepth : depthOf (itemsOf nodes) ≤ maxNesting := by
    rw [depthOf_le, itemsOf_eq_map]
    intro i hi
    obtain ⟨n, hn, rfl⟩ := List.mem_map.mp hi
    exact (hwf n hn).2
  refine ⟨.ofNodes (reread nodes), parse_render (wellFormed_itemsOf hnodes) hdepth,
    joins_reread hnodes, aliasTree_reread hnodes, ?_⟩
  exact itemsOf_reread fun n hn => Node.item_said (hnodes n hn)

/-- A path that is cast before its aggregate, and embeds that share a label. -/
theorem reread_of_parse_shared :
    let text := "n:data->\"k k\"->x::int.sum(),b:o!h!inner(),...b(c(*))"
    ∃ sel, parse (some text) = .ok sel ∧
      ∃ sel', parse (some (render sel.items sel.join)) = .ok sel' ∧
        sel'.join = sel.join ∧ sel'.aliases = sel.aliases ∧
        (sel'.items = sel.items ↔ ∀ i ∈ sel.items, i.Faithful) := by
  intro text
  have h : parse (some text) = .ok (.ofNodes
      [.field "n" ⟨some "data", some "$.k k.x", some "int", some .sum, none⟩,
        .embed "b" ⟨some "o", .inner, some "h"⟩ false [.star],
        .embed "b" .plain true [.embed "c" .plain false [.star]]]) := by
    cbv
  exact ⟨_, h, reread_of_parse h⟩

/-- A key called `$` at the root of a path does not come back. -/
theorem items_reread_ne :
    ∃ sel sel', parse (some "data->\"$\"->x") = .ok sel ∧
      parse (some (render sel.items sel.join)) = .ok sel' ∧ sel'.items ≠ sel.items := by
  refine ⟨.ofNodes [.field "x" ⟨some "data", some "$.$.x", none, none, none⟩],
    .ofNodes [.field "x" ⟨some "data", some "$.x", none, none, none⟩], by cbv, by cbv, ?_⟩
  intro h
  simp [Selection.ofNodes, itemsOf, Node.item] at h

end ResourceQuery.Select
