import ResourceQuery.Filter.Truth
import ResourceQuery.Proofs.Entries

/-! # Filters as tables

A filter can be kept as a table from places to contents in which nothing ties a content to its place: a
column might hold a list of filters, and an addition that meets a content of another kind changes
nothing.

It does not come to that. A table made by additions is the table of a filter, at every depth
(`Built.exists_table_eq`), and an addition to it is the same addition to the filter (`table_addColumn`,
`table_addGroup`, `table_addNegation`). So each addition stands in the table afterwards, beside all that
was there, and is a further conjunct of its meaning (`Built.accumulates`). -/

namespace ResourceQuery

/-- **What stands at a place of a table.** -/
inductive Table.Content where
  | operators (ops : OperatorMap)
  | filters (tables : List (List (Filter.Key × Content)))
  | negated (table : List (Filter.Key × Content))
deriving Inhabited

/-- **A filter as a table.** -/
abbrev Table := List (Filter.Key × Table.Content)

namespace Table

/-! ## Additions -/

/-- Whether operators cannot join what stands at a column. -/
def Content.refuses (ops : OperatorMap) : Option Content → Bool
  | some (.operators es) => OperatorMap.overlaps es ops
  | some _ => true
  | none => false

/-- What stands at a column, with further operators if operators stand there. -/
def Content.joinOperators (ops : OperatorMap) : Option Content → Content
  | some (.operators es) => .operators (Entries.extend es ops)
  | some c => c
  | none => .operators (Entries.extend [] ops)

/-- What stands at a group, with further filters if filters stand there. -/
def Content.joinFilters (ts : List Table) : Option Content → Content
  | some (.filters es) => .filters (es ++ ts)
  | some c => c
  | none => .filters ts

/-- **Filters put after those of a group.** -/
def addGroup (logic : Logic) (ts : List Table) (t : Table) : Table :=
  Entries.update (.group logic) (Content.joinFilters ts) t

/-- **A condition on a column.** -/
def addColumn (name : String) (ops : OperatorMap) (t : Table) : Table :=
  if Content.refuses ops (Entries.get? (.column name) t) then
    addGroup .and [[(.column name, .operators ops)]] t
  else Entries.update (.column name) (Content.joinOperators ops) t

/-- **The negation of a table `s`**, as a condition of `t`. -/
def addNegation (t s : Table) : Table :=
  if Entries.contains .negation t then addGroup .and [[(.negation, .negated s)]] t
  else Entries.insert .negation (.negated s) t

/-- **A table that additions make**, of parts that are made in the same way. -/
inductive Built : Table → Prop where
  | empty : Built []
  | addColumn {t : Table} {ops : OperatorMap} (ht : Built t) (name : String)
      (hops : (Entries.keys ops).Nodup) : Built (addColumn name ops t)
  | addGroup {t : Table} {ts : List Table} (ht : Built t) (logic : Logic) (hts : ∀ s ∈ ts, Built s) :
      Built (addGroup logic ts t)
  | addNegation {t s : Table} (ht : Built t) (hs : Built s) : Built (addNegation t s)

/-! ## Meaning -/

mutual
/-- Whether what stands at a place holds. A content that does not suit its place means nothing. -/
def Content.holds (ν : Valuation) : Filter.Key → Content → Bool
  | .column name, .operators ops => OperatorMap.holds ν name ops
  | .group .and, .filters ts => allHold ν ts
  | .group .or, .filters ts => anyHolds ν ts
  | .negation, .negated t => !(holds ν t)
  | _, _ => false

/-- **Whether a table holds.** -/
def holds (ν : Valuation) : List (Filter.Key × Content) → Bool
  | [] => true
  | (k, c) :: t => c.holds ν k && holds ν t

/-- Whether all of the tables hold. -/
def allHold (ν : Valuation) : List (List (Filter.Key × Content)) → Bool
  | [] => true
  | t :: ts => holds ν t && allHold ν ts

/-- Whether one of the tables holds. -/
def anyHolds (ν : Valuation) : List (List (Filter.Key × Content)) → Bool
  | [] => false
  | t :: ts => holds ν t || anyHolds ν ts
end

end Table

/-! ## The table of a filter -/

mutual
/-- What stands at the place of a condition. -/
def Condition.content : Condition → Table.Content
  | .column _ ops => .operators ops
  | .group _ gs => .filters (Filter.tables gs)
  | .negation g => .negated (Filter.table g)

/-- **The table of a filter.** -/
def Filter.table : List Condition → Table
  | [] => []
  | c :: f => (c.key, c.content) :: Filter.table f

/-- The tables of filters. -/
def Filter.tables : List (List Condition) → List Table
  | [] => []
  | g :: gs => Filter.table g :: Filter.tables gs
end

theorem OperatorMap.overlaps_eq_false {es fs : OperatorMap} :
    overlaps es fs = false ↔ ∀ op ∈ Entries.keys fs, op ∉ Entries.keys es := by
  simp only [overlaps, List.any_eq_false, Entries.contains_iff]
  constructor
  · intro h op hop
    obtain ⟨e, he, rfl⟩ := List.mem_map.mp hop
    exact h e he
  · intro h e he
    exact h e.1 (List.mem_map.mpr ⟨e, he, rfl⟩)

namespace Filter

theorem tables_eq_map (gs : List Filter) : tables gs = gs.map table := by
  induction gs with
  | nil => simp [tables]
  | cons g gs ih => simp [tables, ih]

theorem table_append (f g : Filter) : table (f ++ g) = table f ++ table g := by
  induction f with
  | nil => simp [table]
  | cons c f ih => simp [table, ih]

theorem keys_table (f : Filter) : Entries.keys (table f) = keys f := by
  induction f with
  | nil => simp [table, keys]
  | cons c f ih => simp [table, keys, ih]

mutual
theorem holds_content (ν : Valuation) : ∀ c : Condition, c.content.holds ν c.key = c.holds ν
  | .column name ops => by simp [Condition.content, Condition.key, Table.Content.holds, Condition.holds]
  | .group .and gs => by
    simp [Condition.content, Condition.key, Table.Content.holds, Condition.holds, allHold_tables ν gs]
  | .group .or gs => by
    simp [Condition.content, Condition.key, Table.Content.holds, Condition.holds, anyHolds_tables ν gs]
  | .negation g => by
    simp [Condition.content, Condition.key, Table.Content.holds, Condition.holds, holds_table ν g]

/-- **The table means what the filter means.** -/
theorem holds_table (ν : Valuation) : ∀ f : List Condition, Table.holds ν (table f) = holds ν f
  | [] => by simp [table, Table.holds]
  | c :: f => by simp [table, Table.holds, holds_content ν c, holds_table ν f]

theorem allHold_tables (ν : Valuation) :
    ∀ gs : List (List Condition), Table.allHold ν (tables gs) = gs.all (holds ν)
  | [] => by simp [tables, Table.allHold]
  | g :: gs => by simp [tables, Table.allHold, holds_table ν g, allHold_tables ν gs]

theorem anyHolds_tables (ν : Valuation) :
    ∀ gs : List (List Condition), Table.anyHolds ν (tables gs) = gs.any (holds ν)
  | [] => by simp [tables, Table.anyHolds]
  | g :: gs => by simp [tables, Table.anyHolds, holds_table ν g, anyHolds_tables ν gs]
end

/-! ## Additions to a filter and to its table -/

theorem get?_column_table (name : String) (f : Filter) :
    Entries.get? (.column name) (table f) = (operatorsOf? name f).map .operators := by
  induction f with
  | nil => simp [table, operatorsOf?]
  | cons c f ih =>
    cases c with
    | column n ops =>
      by_cases hn : n = name
      · simp [table, Entries.get?_cons, operatorsOf?, Condition.key, Condition.content, hn]
      · simp [table, Entries.get?_cons, operatorsOf?, Condition.key, hn, ih]
    | group l gs => simp [table, Entries.get?_cons, operatorsOf?, Condition.key, ih]
    | negation g => simp [table, Entries.get?_cons, operatorsOf?, Condition.key, ih]

/-- **Filters added to a group** are added to the group of the table. -/
theorem table_addGroup (logic : Logic) (gs : List Filter) (f : Filter) :
    table (f.addGroup logic gs) = (table f).addGroup logic (tables gs) := by
  unfold Table.addGroup
  induction f with
  | nil => simp [addGroup, table, Condition.key, Condition.content, Entries.update,
      Table.Content.joinFilters]
  | cons c f ih =>
    cases c with
    | column n ops => simp [addGroup, table, Condition.key, Entries.update, ih]
    | group l es =>
      by_cases hl : l = logic
      · simp [addGroup, table, Condition.key, Condition.content, Entries.update, hl,
          Table.Content.joinFilters, tables_eq_map]
      · simp [addGroup, table, Condition.key, Entries.update, hl, ih]
    | negation g => simp [addGroup, table, Condition.key, Entries.update, ih]

theorem table_joinColumn {name : String} {ops : OperatorMap} {f : Filter}
    (hops : (Entries.keys ops).Nodup)
    (hnew : ∀ es, operatorsOf? name f = some es → ∀ op ∈ Entries.keys ops, op ∉ Entries.keys es) :
    table (joinColumn name ops f) =
      Entries.update (.column name) (Table.Content.joinOperators ops) (table f) := by
  induction f with
  | nil =>
    simp [joinColumn, table, Condition.key, Condition.content, Entries.update,
      Table.Content.joinOperators, Entries.extend_eq_append hops]
  | cons c f ih =>
    cases c with
    | column n es =>
      by_cases hn : n = name
      · have hes := hnew es (by simp [operatorsOf?, hn])
        simp [joinColumn, table, Condition.key, Condition.content, Entries.update, hn,
          Table.Content.joinOperators, Entries.extend_eq_append hops hes]
      · have ih := ih fun es hes => hnew es (by simpa [operatorsOf?, hn] using hes)
        simp [joinColumn, table, Condition.key, Entries.update, hn, ih]
    | group l gs => simp [joinColumn, table, Condition.key, Entries.update, ih hnew]
    | negation g => simp [joinColumn, table, Condition.key, Entries.update, ih hnew]

theorem table_addColumn (name : String) {ops : OperatorMap} (hops : (Entries.keys ops).Nodup)
    (f : Filter) : table (f.addColumn name ops) = (table f).addColumn name ops := by
  have hrefuses : Table.Content.refuses ops (Entries.get? (.column name) (table f)) =
      repeatsOperator name ops f := by
    rw [get?_column_table, repeatsOperator]
    cases operatorsOf? name f <;> rfl
  unfold addColumn Table.addColumn
  rw [hrefuses]
  split
  · rw [table_addGroup]
    simp [tables, table, Condition.key, Condition.content]
  · rename_i h
    refine table_joinColumn hops fun es hes => OperatorMap.overlaps_eq_false.mp ?_
    simpa [repeatsOperator, hes] using h

theorem table_addNegation (f g : Filter) : table (f.addNegation g) = (table f).addNegation (table g) := by
  have hcontains : Entries.contains .negation (table f) = hasNegation f := by
    rw [Bool.eq_iff_iff, hasNegation_iff, Entries.contains_iff, keys_table]
  unfold addNegation Table.addNegation
  rw [hcontains]
  split
  · rw [table_addGroup]
    simp [tables, table, Condition.key, Condition.content]
  · rename_i h
    have hnew : Key.negation ∉ Entries.keys (table f) := by
      rw [keys_table]
      exact fun hmem => h (hasNegation_iff.mpr hmem)
    rw [Entries.insert_of_not_mem hnew, table_append]
    rfl

end Filter

/-! ## Tables that additions make -/

namespace Table

/-- **A content that suits its place.** -/
inductive Content.Suits : Filter.Key → Content → Prop where
  | column (name : String) (ops : OperatorMap) : Suits (.column name) (.operators ops)
  | group (logic : Logic) (ts : List Table) : Suits (.group logic) (.filters ts)
  | negation (t : Table) : Suits .negation (.negated t)

/-- The operators at a column. -/
def operatorsAt (name : String) (t : Table) : OperatorMap :=
  match Entries.get? (.column name) t with
  | some (.operators ops) => ops
  | _ => []

/-- The filters at a group. -/
def filtersAt (logic : Logic) (t : Table) : List Table :=
  match Entries.get? (.group logic) t with
  | some (.filters ts) => ts
  | _ => []

theorem suits_table (f : Filter) : ∀ e ∈ Filter.table f, e.2.Suits e.1 := by
  intro e he
  induction f with
  | nil => simp [Filter.table] at he
  | cons c f ih =>
    rw [Filter.table, List.mem_cons] at he
    rcases he with rfl | he
    · cases c with
      | column name ops => exact .column name ops
      | group logic gs => exact .group logic (Filter.tables gs)
      | negation g => exact .negation (Filter.table g)
    · exact ih he

theorem exists_tables_eq {ts : List Table} (h : ∀ t ∈ ts, ∃ f : Filter, Filter.table f = t) :
    ∃ gs : List Filter, Filter.tables gs = ts := by
  induction ts with
  | nil => exact ⟨[], by simp [Filter.tables]⟩
  | cons t ts ih =>
    obtain ⟨g, rfl⟩ := h t (by simp)
    obtain ⟨gs, rfl⟩ := ih fun s hs => h s (by simp [hs])
    exact ⟨g :: gs, by simp [Filter.tables]⟩

/-- **A table that additions make is the table of a filter.** -/
theorem Built.exists_table_eq {t : Table} (h : Built t) : ∃ f : Filter, Filter.table f = t := by
  induction h with
  | empty => exact ⟨[], by simp [Filter.table]⟩
  | addColumn _ name hops ih =>
    obtain ⟨f, rfl⟩ := ih
    exact ⟨f.addColumn name _, Filter.table_addColumn name hops f⟩
  | addGroup _ logic _ ih ihs =>
    obtain ⟨f, rfl⟩ := ih
    obtain ⟨gs, rfl⟩ := exists_tables_eq ihs
    exact ⟨f.addGroup logic gs, Filter.table_addGroup logic gs f⟩
  | addNegation _ _ ih ihs =>
    obtain ⟨f, rfl⟩ := ih
    obtain ⟨g, rfl⟩ := ihs
    exact ⟨f.addNegation g, Filter.table_addNegation f g⟩

theorem nodup_keys_addGroup {logic : Logic} {ts : List Table} {t : Table}
    (h : (Entries.keys t).Nodup) : (Entries.keys (addGroup logic ts t)).Nodup :=
  Entries.nodup_keys_update h

/-- Additions fill each place at most once. -/
theorem Built.nodup_keys {t : Table} (h : Built t) : (Entries.keys t).Nodup := by
  induction h with
  | empty => simp
  | addColumn _ name hops ih =>
    unfold Table.addColumn
    split
    · exact nodup_keys_addGroup ih
    · exact Entries.nodup_keys_update ih
  | addGroup _ logic _ ih => exact nodup_keys_addGroup ih
  | addNegation _ _ ih =>
    unfold Table.addNegation
    split
    · exact nodup_keys_addGroup ih
    · exact Entries.nodup_keys_insert ih

/-- **All that is added to a table stands in it**, beside what was there, and counts. -/
structure Accumulates (t : Table) : Prop where
  /-- Operators stand at columns, filters at groups, and a filter at the negation, at every depth. -/
  exists_table_eq : ∃ f : Filter, Filter.table f = t
  suits : ∀ e ∈ t, e.2.Suits e.1
  /-- No place is filled twice. -/
  nodup_keys : (Entries.keys t).Nodup
  /-- Filters go after those of their group. -/
  addGroup_eq : ∀ logic ts, t.addGroup logic ts =
    Entries.insert (.group logic) (.filters (t.filtersAt logic ++ ts)) t
  /-- Operators go after those of their column, or make a filter of the `and` group. -/
  addColumn_eq : ∀ name ops, (Entries.keys ops).Nodup → t.addColumn name ops =
    if OperatorMap.overlaps (t.operatorsAt name) ops then
      t.addGroup .and [[(.column name, .operators ops)]]
    else Entries.insert (.column name) (.operators (t.operatorsAt name ++ ops)) t
  /-- A negation goes to its place, or makes a filter of the `and` group. -/
  addNegation_eq : ∀ s, t.addNegation s =
    if Filter.Key.negation ∈ Entries.keys t then t.addGroup .and [[(.negation, .negated s)]]
    else t ++ [(.negation, .negated s)]
  /-- A condition added to a column is a further conjunct. -/
  holds_addColumn : ∀ ν name ops, (Entries.keys ops).Nodup →
    holds ν (t.addColumn name ops) = (holds ν t && OperatorMap.holds ν name ops)
  /-- An added negation is a further conjunct. -/
  holds_addNegation : ∀ ν s, Built s → holds ν (t.addNegation s) = (holds ν t && !(holds ν s))

theorem addGroup_eq_insert {t : Table} (h : ∀ e ∈ t, e.2.Suits e.1) (logic : Logic)
    (ts : List Table) :
    t.addGroup logic ts = Entries.insert (.group logic) (.filters (t.filtersAt logic ++ ts)) t := by
  unfold addGroup filtersAt
  rw [Entries.update_eq_insert]
  cases hget : Entries.get? (.group logic) t with
  | none => simp [Content.joinFilters]
  | some c =>
    have hsuits := h _ (Entries.mem_of_get? hget)
    cases hsuits with
    | group => simp [Content.joinFilters]

theorem addColumn_eq_insert {t : Table} (h : ∀ e ∈ t, e.2.Suits e.1) (name : String)
    {ops : OperatorMap} (hops : (Entries.keys ops).Nodup) :
    t.addColumn name ops =
      if OperatorMap.overlaps (t.operatorsAt name) ops then
        t.addGroup .and [[(.column name, .operators ops)]]
      else Entries.insert (.column name) (.operators (t.operatorsAt name ++ ops)) t := by
  unfold addColumn operatorsAt
  rw [Entries.update_eq_insert]
  cases hget : Entries.get? (.column name) t with
  | none =>
    have hnone : OperatorMap.overlaps [] ops = false := OperatorMap.overlaps_eq_false.mpr (by simp)
    simp [Content.refuses, Content.joinOperators, hnone, Entries.extend_eq_append hops]
  | some c =>
    have hsuits := h _ (Entries.mem_of_get? hget)
    cases hsuits with
    | column _ es =>
      have hrefuses : Content.refuses ops (some (.operators es)) = OperatorMap.overlaps es ops := rfl
      by_cases hover : OperatorMap.overlaps es ops = true
      · rw [if_pos (hrefuses.trans hover), if_pos hover]
      · have hnew := OperatorMap.overlaps_eq_false.mp (Bool.eq_false_iff.mpr hover)
        rw [if_neg (hrefuses ▸ hover), if_neg hover, Content.joinOperators,
          Entries.extend_eq_append hops hnew]

theorem addNegation_eq_append (t s : Table) :
    t.addNegation s =
      if Filter.Key.negation ∈ Entries.keys t then t.addGroup .and [[(.negation, .negated s)]]
      else t ++ [(.negation, .negated s)] := by
  unfold addNegation
  simp only [Entries.contains_iff]
  split
  · rfl
  · rename_i hnew
    exact Entries.insert_of_not_mem hnew _

/-- **Additions accumulate.** -/
theorem Built.accumulates {t : Table} (h : Built t) : t.Accumulates := by
  obtain ⟨f, rfl⟩ := h.exists_table_eq
  have hsuits := suits_table f
  refine ⟨⟨f, rfl⟩, hsuits, h.nodup_keys, addGroup_eq_insert hsuits,
    fun name ops => addColumn_eq_insert hsuits name, addNegation_eq_append _, ?_, ?_⟩
  · intro ν name ops hops
    rw [← Filter.table_addColumn name hops, Filter.holds_table, Filter.holds_table,
      Filter.holds_addColumn]
  · intro ν s hs
    obtain ⟨g, rfl⟩ := hs.exists_table_eq
    rw [← Filter.table_addNegation, Filter.holds_table, Filter.holds_table, Filter.holds_table,
      Filter.holds_addNegation]

end Table

end ResourceQuery
