import Mathlib
import ResourceQuery.Proofs.Filter.Presence
import ResourceQuery.Proofs.Filter.Stored
import ResourceQuery.Proofs.Statement.Parts

/-! # A condition on every row

Steps that put one more condition on the rows of the request itself make the same statement with that
condition, from any request (`translate_withCondition`). It cannot be escaped by what the request says of
the same column, or of groups and negations: the filter it meets is made by additions, and those
accumulate (`enforced`). -/

namespace ResourceQuery

/-- The filters with one more condition on the rows of the request itself. -/
def Filters.addCondition (column : String) (ops : OperatorMap) (fs : Filters) : Filters :=
  { fs with top := fs.top.addColumn column ops }

/-- **The same steps, with one more condition** after the filters are read. -/
def Steps.withCondition (column : String) (ops : OperatorMap) (s : Steps) : Steps :=
  { s with
    filters := fun params tree => (s.filters params tree).map (Filters.addCondition column ops) }

/-- **The statement with one more condition** on its rows. -/
def Statement.addCondition (column : String) (ops : OperatorMap) (s : Statement) : Statement :=
  { s with filter := some ((s.filter.getD []).addColumn column ops) }

theorem Steps.withRowFilter_eq {column value : String} {ops : OperatorMap}
    (h : FilterValue.parse value = .ok ops) (s : Steps) :
    s.withRowFilter column value = s.withCondition column ops := by
  have hfilters : ∀ params tree, (do addRowFilter column value (← s.filters params tree)) =
      (s.filters params tree).map (Filters.addCondition column ops) := by
    intro params tree
    cases s.filters params tree with
    | error e => rfl
    | ok fs =>
      simp only [bind, Except.bind, addRowFilter, h]
      rfl
  unfold withRowFilter withCondition
  simp only [hfilters]

theorem Statement.filter?_addColumn (column : String) (ops : OperatorMap) (f : Filter) :
    filter? (f.addColumn column ops) = some (((filter? f).getD []).addColumn column ops) := by
  rw [getD_filter?]
  cases h : f.addColumn column ops with
  | nil => exact absurd h (Filter.addColumn_ne_nil column ops f)
  | cons c g => rfl

/-- **One more condition changes the filter of a statement and nothing else**, and refuses no request. -/
theorem Translator.translate_withCondition (t : Translator) (column : String) (ops : OperatorMap)
    (r : Request) :
    translate { t with steps := t.steps.withCondition column ops } r =
      (t.translate r).map (Statement.addCondition column ops) := by
  unfold translate
  simp only [Refusal.map_bind]
  refine bind_congr fun url => bind_congr fun selection => bind_congr fun payload => ?_
  -- only the reading of the filters differs
  simp only [Steps.withCondition, Refusal.mapError_map, Refusal.bind_map]
  refine bind_congr fun filters => bind_congr fun windows => ?_
  simp only [Filters.addCondition, Statement.filter?_addColumn]
  rfl

/-- **The filter of a statement is made by additions**, by the standard steps. -/
theorem Statement.built_filter {basePath : String} {r : Request} {s : Statement}
    (h : Translator.translate { basePath } r = .ok s) : Filter.Built (s.filter.getD []) := by
  obtain ⟨p, hread, rfl⟩ := Translator.translate_eq_ok.mp h
  have hfilter : (Parts.statement { basePath } r p).filter.getD [] = p.filters.top :=
    getD_filter? p.filters.top
  rw [hfilter]
  exact Filters.built_ofParams hread.filters [] p.filters.top rfl

/-- **A condition on every row is always enforced.** Whatever additions made a table, a further one stands
in it and counts. So steps with one more condition on a column accept every request that the standard
steps accept, and make the same statement of it, whose filter holds where the filter and the condition
do. -/
theorem enforced :
    (∀ t : Table, t.Built → t.Accumulates) ∧
    ∀ (basePath column : String) (ops : OperatorMap) (r : Request) (s : Statement),
      (Entries.keys ops).Nodup → Translator.translate { basePath } r = .ok s →
      ∃ f : Filter,
        Translator.translate { basePath, steps := Steps.standard.withCondition column ops } r =
          .ok { s with filter := some f } ∧
        (∀ value, FilterValue.parse value = .ok ops →
          Translator.translate { basePath, steps := Steps.standard.withRowFilter column value } r =
            .ok { s with filter := some f }) ∧
        Filter.Built (s.filter.getD []) ∧
        Filter.table f = (Filter.table (s.filter.getD [])).addColumn column ops ∧
        ∀ ν, Filter.holds ν f = (Filter.holds ν (s.filter.getD []) && OperatorMap.holds ν column ops) := by
  refine ⟨fun t ht => ht.accumulates, fun basePath column ops r s hops hs => ?_⟩
  have htranslate : Translator.translate
      { basePath, steps := Steps.standard.withCondition column ops } r =
        .ok (s.addCondition column ops) := by
    have hmap := Translator.translate_withCondition { basePath } column ops r
    rw [hs] at hmap
    exact hmap
  refine ⟨(s.filter.getD []).addColumn column ops, htranslate, fun value hvalue => ?_,
    Statement.built_filter hs, Filter.table_addColumn column hops _, fun ν => ?_⟩
  · rw [Steps.withRowFilter_eq hvalue]
    exact htranslate
  · exact Filter.holds_addColumn ν column ops _

/-- A request that says the opposite of the condition, and a column called like a group beside that group. -/
theorem enforced_opposed :
    let ops : OperatorMap := .single (.comparison .is) (.value .null)
    let t : Table := Table.addColumn "$and" ops (Table.addNegation (Table.addGroup .and [[]] []) [])
    let r : Request := ⟨.get, "/t?d=not.is.null&d=is.null&$and=is.null&and=(d.is.null)", [], [], none⟩
    t.Built ∧ t.Accumulates ∧
      ∃ s, Translator.translate {} r = .ok s ∧ ∃ f : Filter,
        Translator.translate { steps := Steps.standard.withRowFilter "d" "is.null" } r =
          .ok { s with filter := some f } ∧
        ∀ ν, Filter.holds ν f = (Filter.holds ν (s.filter.getD []) && OperatorMap.holds ν "d" ops) := by
  intro ops t r
  have hops : (Entries.keys ops).Nodup := by decide
  have ht : t.Built :=
    .addColumn (.addNegation (.addGroup .empty .and (by simpa using .empty)) .empty) "$and" hops
  have hvalue : FilterValue.parse "is.null" = .ok ops := by cbv
  have h : ∃ s, Translator.translate {} r = .ok s := by
    let p : Parts := ⟨⟨"/t", some "d=not.is.null&d=is.null&$and=is.null&and=(d.is.null)"⟩, .ofNodes [],
      .empty,
      ⟨[.column "d" [(.not, .negated [(.comparison .is, .value .null)]), (.comparison .is, .value .null)],
        .column "$and" [(.comparison .is, .value .null)],
        .group .and [[.column "d" [(.comparison .is, .value .null)]]]], []⟩, ⟨.all, []⟩⟩
    refine ⟨_, Translator.translate_eq_ok.mpr ⟨p, ⟨?_, ?_, ?_, ?_, ?_⟩, rfl⟩⟩
    all_goals cbv
  obtain ⟨s, hs⟩ := h
  obtain ⟨f, -, hf, -, -, hholds⟩ := enforced.2 "/rest/v1" "d" ops r s hops hs
  exact ⟨ht, enforced.1 t ht, s, hs, f, hf "is.null" hvalue, hholds⟩

end ResourceQuery
