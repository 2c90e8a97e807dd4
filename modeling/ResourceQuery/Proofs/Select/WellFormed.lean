import ResourceQuery.Proofs.Entries
import ResourceQuery.Select.Printer

/-! # Well-formed select lists

What the entries of a list have in common if a text says them: names without quotes, which could not be
written; a cast before the aggregate only where there is an aggregate; the column of a field only where
it is needed; a hint that is no word for a kind of join; a resource only where the label is another name
for it; no empty embeds.

The same is said of the nodes of a text (`Node.WellFormed`) and of the entries of a list with the joins
of their level beside them (`Item.WellFormed`). `wellFormed_itemsOf` leads from one to the other: the
joins of a level are those of its nodes. -/

namespace ResourceQuery.Select

/-- A name that can stand in quotes. -/
def Unquoted (name : String) : Prop := '"' ∉ name.toList

instance (name : String) : Decidable (Unquoted name) :=
  inferInstanceAs (Decidable ('"' ∉ name.toList))

/-- The count of all rows. -/
def Field.rows (cast : Option String) : Field := ⟨none, none, none, some .count, cast⟩

/-- What is computed from a column, which is named where the label does not say it. -/
def Field.computed (label column : String) (path preCast : Option String)
    (aggregate : Option Aggregate) (cast : Option String) : Field :=
  ⟨if column ≠ label ∨ aggregate.isSome ∨ path.isSome then some column else none,
    path, preCast, aggregate, cast⟩

theorem Field.getD_column_computed (label column : String) (path preCast : Option String)
    (aggregate : Option Aggregate) (cast : Option String) :
    (Field.computed label column path preCast aggregate cast).column.getD label = column := by
  unfold computed
  split
  · rfl
  · rename_i h
    exact (Decidable.of_not_not fun hne => h (Or.inl hne)).symm

/-- **A field that a text can say**: the count of all rows, or what is computed from a column. -/
inductive Field.WellFormed (label : String) : Field → Prop where
  | rows {cast : Option String} (hcast : ∀ c ∈ cast, Unquoted c) :
      Field.WellFormed label (.rows cast)
  | computed {column : String} {path preCast : Option String} {aggregate : Option Aggregate}
      {cast : Option String} (hcolumn : Unquoted column)
      (hpath : ∀ p ∈ path, Unquoted p ∧ ∃ rest, p.toList = '$' :: '.' :: rest)
      (hpreCast : ∀ c ∈ preCast, Unquoted c) (hcast : ∀ c ∈ cast, Unquoted c)
      (haggregate : preCast.isSome → aggregate.isSome)
      (hcount : path = none → column = "count" → preCast = none) :
      Field.WellFormed label (.computed label column path preCast aggregate cast)

/-- **A join that a text can say.** The word of a kind is no hint. -/
structure Join.WellFormed (join : Join) : Prop where
  resource : ∀ r ∈ join.resource, Unquoted r
  hint : ∀ h ∈ join.hint, Unquoted h ∧ JoinKind.ofWord? h = none

theorem Join.wellFormed_plain : Join.plain.WellFormed :=
  ⟨by simp [plain], by simp [plain]⟩

/-- **A node that a text can say.** A spread embed has no label beside its resource. -/
inductive Node.WellFormed : Node → Prop where
  | star : Node.WellFormed .star
  | column {name : String} (hname : Unquoted name) : Node.WellFormed (.column name)
  | field {label : String} {f : Field} (hlabel : Unquoted label) (hf : f.WellFormed label) :
      Node.WellFormed (.field label f)
  | embed {label : String} {join : Join} {spread : Bool} {nodes : List Node}
      (hlabel : Unquoted label) (hjoin : join.WellFormed)
      (hspread : spread = true → join.resource = none) (hne : nodes ≠ [])
      (hnodes : ∀ n ∈ nodes, Node.WellFormed n) : Node.WellFormed (.embed label join spread nodes)

variable {α : Type}

/-- **An entry that a text can say**, with the joins of its level. -/
inductive Item.WellFormed : JoinMap → Item α → Prop where
  | star {join : JoinMap} : Item.WellFormed join .star
  | column {join : JoinMap} {name : String} (hname : Unquoted name) :
      Item.WellFormed join (.column name)
  | field {join : JoinMap} {label : String} {f : Field} (hlabel : Unquoted label)
      (hf : f.WellFormed label) : Item.WellFormed join (.field label f)
  | embed {join : JoinMap} {label : String} {items : List (Item α)} {note : α} {spread : Bool}
      {inner : Option JoinMap} (hlabel : Unquoted label) (hjoin : (joinOf join label).WellFormed)
      (hne : items ≠ []) (hitems : ∀ i ∈ items, Item.WellFormed (inner.getD []) i) :
      Item.WellFormed join (.embed label items note spread inner)

/-! ## Depth -/

mutual
/-- How deep embeds stand inside one another in an entry. -/
def Item.depth : Item α → Nat
  | .star => 0
  | .column _ => 0
  | .field _ _ => 0
  | .embed _ items _ _ _ => depthOf items + 1

/-- How deep embeds stand inside one another in a list. -/
def depthOf : List (Item α) → Nat
  | [] => 0
  | i :: is => max i.depth (depthOf is)
end

theorem depthOf_le {items : List (Item α)} {n : Nat} :
    depthOf items ≤ n ↔ ∀ i ∈ items, i.depth ≤ n := by
  induction items with
  | nil => simp [depthOf]
  | cons i is ih =>
    rw [depthOf, Nat.max_le, ih]
    simp

theorem depthOf_itemsOf_le {nodes : List Node} {n : Nat} :
    depthOf (itemsOf nodes) ≤ n ↔ ∀ m ∈ nodes, m.item.depth ≤ n := by
  rw [depthOf_le, itemsOf_eq_map, List.forall_mem_map]

/-! ## From nodes to entries -/

theorem getD_joins? (nodes : List Node) : (joins? nodes).getD [] = joins nodes := by
  unfold joins?
  split <;> simp_all

theorem joinOf_wellFormed {nodes : List Node} (h : ∀ n ∈ nodes, n.WellFormed) (label : String) :
    (joinOf (joins nodes) label).WellFormed := by
  unfold joinOf
  cases hget : Entries.get? label (joins nodes) with
  | none => exact Join.wellFormed_plain
  | some join =>
    have hmem := Entries.mem_ofList (Entries.mem_of_get? hget)
    rw [List.mem_filterMap] at hmem
    obtain ⟨n, hn, hentry⟩ := hmem
    cases h n hn with
    | star => simp [Node.joinEntry?] at hentry
    | column => simp [Node.joinEntry?] at hentry
    | field => simp [Node.joinEntry?] at hentry
    | embed hlabel hjoin =>
      simp only [Node.joinEntry?, Option.some.injEq, Prod.mk.injEq] at hentry
      obtain ⟨-, rfl⟩ := hentry
      exact hjoin

theorem itemsOf_ne_nil {nodes : List Node} (h : nodes ≠ []) : itemsOf nodes ≠ [] := by
  rw [itemsOf_eq_map]
  simpa using h

theorem Node.WellFormed.item {n : Node} (h : n.WellFormed) {join : JoinMap}
    (hjoin : ∀ label, (joinOf join label).WellFormed) : n.item.WellFormed join := by
  induction h generalizing join with
  | star => exact .star
  | column hname => exact .column hname
  | field hlabel hf => exact .field hlabel hf
  | embed hlabel _ _ hne hnodes ih =>
    refine .embed hlabel (hjoin _) (itemsOf_ne_nil hne) fun i hi => ?_
    rw [itemsOf_eq_map] at hi
    obtain ⟨m, hm, rfl⟩ := List.mem_map.mp hi
    refine ih m hm fun label => ?_
    rw [getD_joins?]
    exact joinOf_wellFormed hnodes label

/-- **Well-formed nodes are well-formed entries**, beside the joins of their level. -/
theorem wellFormed_itemsOf {nodes : List Node} (h : ∀ n ∈ nodes, n.WellFormed) :
    ∀ i ∈ itemsOf nodes, i.WellFormed (joins nodes) := by
  intro i hi
  rw [itemsOf_eq_map] at hi
  obtain ⟨n, hn, rfl⟩ := List.mem_map.mp hi
  exact (h n hn).item (joinOf_wellFormed h)

end ResourceQuery.Select
