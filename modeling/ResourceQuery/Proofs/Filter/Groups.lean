import ResourceQuery.Proofs.Filter.GroupText
import ResourceQuery.Proofs.Filter.Meaning

/-! # What a group's text means

The filter that a group's text stands for is nested like the tree that was written, every condition is what
its column alone would stand for, and the first condition that is refused decides the error
(`ofParams_logicTree`). Trees with more than `Filter.maxNesting` levels are refused as such, whatever their
conditions are. -/

namespace ResourceQuery

namespace LogicTree

/-! ## What a text means -/

theorem toList_mark (negated : Bool) :
    (mark negated).toList = if negated then FilterValue.notMark else [] := by
  cases negated <;> rfl

/-- **A condition is what its column alone would stand for.** -/
theorem conditionFilter_leafText {negated : Bool} {column value : String}
    (h : (leaf negated column value).WellFormed) :
    Expression.conditionFilter (leafText negated column value) =
      (leaf negated column value).filter := by
  cases h with
  | leaf hcolumn htrimmed henclosed hgroup hnegated =>
    have hsplit : Text.splitOnce '.' (column.toList ++ '.' :: value.toList) =
        some (column.toList, value.toList) := Text.splitOnce_append hcolumn
    have htext : leafText negated column value =
        (mark negated).toList ++ (column.toList ++ '.' :: value.toList) := by
      simp [leafText]
    rw [filter, FilterValue.parse, String.toList_append]
    unfold Expression.conditionFilter
    rw [htext]
    cases negated with
    | true =>
      rw [toList_mark, if_pos rfl, Text.dropLead?_append]
      simp only [hsplit, if_true, String.ofList_toList]
      cases FilterValue.ofChars (FilterValue.notMark ++ value.toList) <;> rfl
    | false =>
      have hnone : Text.dropLead? FilterValue.notMark (column.toList ++ '.' :: value.toList) = none := by
        cases hdrop : Text.dropLead? FilterValue.notMark (column.toList ++ '.' :: value.toList) with
        | none => rfl
        | some r =>
          refine absurd ?_ (hnegated rfl)
          rw [htext]
          exact ⟨r, (Text.dropLead?_eq_some.mp hdrop).symm⟩
      have hempty : (mark false).toList = [] := rfl
      rw [hempty, List.nil_append, List.nil_append, hnone]
      simp only [hsplit, Bool.false_eq_true, if_false, String.ofList_toList]
      cases FilterValue.ofChars value.toList <;> rfl

theorem isEmpty_expression (t : LogicTree) : t.expression.isEmpty = false := by
  cases t with
  | group logic negated items => rfl
  | leaf negated column value =>
    obtain ⟨c, cs, htext⟩ := List.exists_cons_of_ne_nil (leafText_ne_nil negated column value)
    rw [expression, htext]
    rfl

theorem filters_orEmpty (es : List Expression) :
    Expression.filters (orEmpty es) = Expression.filters es := by
  cases es <;> rfl

theorem filters_expressions {items : List LogicTree}
    (h : ∀ t ∈ items, Expression.filter t.expression = t.filter) :
    Expression.filters (expressions items) = filters items := by
  induction items with
  | nil => rfl
  | cons t ts ih =>
    have ih := ih fun u hu => h u (List.mem_cons_of_mem t hu)
    rw [expressions, Expression.filters, isEmpty_expression, if_neg (by simp), filters,
      h t List.mem_cons_self, ih]
    cases t.filter with
    | error e => rfl
    | ok g => cases filters ts <;> rfl

/-- **What a text says is what its tree means.** -/
theorem filter_expression {t : LogicTree} (h : t.WellFormed) :
    Expression.filter t.expression = t.filter := by
  induction h with
  | leaf hcolumn htrimmed henclosed hgroup hnegated =>
    exact conditionFilter_leafText (.leaf hcolumn htrimmed henclosed hgroup hnegated)
  | @group logic negated items hitems ih =>
    rw [expression, Expression.filter, filters_orEmpty, filters_expressions ih, filter]
    cases filters items <;> rfl

/-- **The text of a list is read as the filters that its trees mean**, unless they are too deep. -/
theorem parse_listText {items : List LogicTree} (h : ∀ t ∈ items, t.WellFormed) :
    FilterGroup.parse (String.ofList (listText items)) =
      if levelsOf items < Filter.maxNesting then filters items else .error .tooDeep := by
  have hread := itemsAt_listText Filter.maxNesting h []
  rw [List.append_nil] at hread
  have hall : Expression.readAll (listText items) = listed Filter.maxNesting items := by
    unfold Expression.readAll
    have hopen : ∃ r, listText items = '(' :: r := ⟨_, rfl⟩
    obtain ⟨r, hr⟩ := hopen
    rw [hr] at hread ⊢
    simp only [hread]
    cases listed Filter.maxNesting items <;> rfl
  unfold FilterGroup.parse
  rw [String.toList_ofList, hall]
  unfold listed
  by_cases hlevels : levelsOf items < Filter.maxNesting
  · rw [if_pos hlevels, if_pos hlevels]
    exact (filters_orEmpty _).trans (filters_expressions fun t ht => filter_expression (h t ht))
  · rw [if_neg hlevels, if_neg hlevels]

/-! ## What a parameter means -/

theorem groupKey?_groupWord (logic : Logic) (negated : Bool) :
    Filters.groupKey? (groupWord logic negated) = some (logic, negated) :=
  Filters.groupKey?_eq_some_iff.mpr rfl

theorem place?_of_split {tree : AliasTree} {key : String} {path : List String} {logic : Logic}
    {negated : Bool} (h : tree.split key = (path, groupWord logic negated)) :
    Filters.place? tree key = some (path, groupWord logic negated) := by
  have hreserved : isReserved key = false := by
    cases hres : isReserved key with
    | false => rfl
    | true =>
      have hmem : key ∈ reservedKeys := isReserved_iff.mp hres
      have hword : groupWord logic negated ∉ reservedKeys := by
        cases logic <;> cases negated <;> decide
      rw [tree.split_of_reserved hmem, Prod.mk.injEq] at h
      exact absurd hmem (h.2 ▸ hword)
  have hwindow : isWindowKey (groupWord logic negated) = false := by
    cases logic <;> cases negated <;> decide
  unfold Filters.place?
  rw [h, hreserved, hwindow]
  simp

end LogicTree

/-- A filter alone at its place. -/
def Filters.alone (path : List String) (f : Filter) : Filters :=
  if path = [] then ⟨f, []⟩ else ⟨[], [(path, f)]⟩

theorem Filters.modify_empty (path : List String) (change : Filter → Except FilterError Filter) :
    Filters.modify path change ⟨[], []⟩ = (change []).map (Filters.alone path) := by
  cases path <;> rfl

open LogicTree in
/-- **A group's text is read as it was meant**: nested like its tree, condition by condition, wherever the
key leads. The first condition that is refused decides the error, and too many levels are one. -/
theorem ofParams_logicTree {tree : AliasTree} {key : String} {path : List String} {logic : Logic}
    {negated : Bool} {items : List LogicTree} (h : ∀ t ∈ items, t.WellFormed)
    (hkey : tree.split key = (path, groupWord logic negated)) :
    Filters.ofParams (.ofPairs [(key, String.ofList (listText items))]) tree =
      if (group logic negated items).levels ≤ Filter.maxNesting then
        (group logic negated items).filter.map (Filters.alone path)
      else .error .tooDeep := by
  have happly : Filters.applyKey (groupWord logic negated) [String.ofList (listText items)] [] =
      if (group logic negated items).levels ≤ Filter.maxNesting then
        (group logic negated items).filter
      else .error .tooDeep := by
    unfold Filters.applyKey
    rw [groupKey?_groupWord, levels, filter]
    simp only [Filters.pool, parse_listText h]
    by_cases hlevels : levelsOf items < Filter.maxNesting
    · rw [if_pos hlevels, if_pos (show levelsOf items + 1 ≤ Filter.maxNesting from hlevels)]
      cases filters items with
      | error e => rfl
      | ok gs =>
        simp only [bind, Except.bind, pure, Except.pure, List.append_nil]
        rfl
    · rw [if_neg hlevels, if_neg (show ¬ levelsOf items + 1 ≤ Filter.maxNesting from hlevels)]
      rfl
  have hstep : Filters.ofParams (.ofPairs [(key, String.ofList (listText items))]) tree =
      Filters.step tree ⟨[], []⟩ (key, [String.ofList (listText items)]) := bind_pure _
  rw [hstep, Filters.step_eq, place?_of_split hkey]
  simp only [Filters.modify_empty, happly]
  split <;> rfl

theorem Text.trimmed_of_ends {cs : List Char} {c d : Char} (hhead : cs.head? = some c)
    (hlast : cs.getLast? = some d) (hc : Text.isBlank c = false) (hd : Text.isBlank d = false) :
    Text.Trimmed cs := by
  refine ⟨fun e he => ?_, fun e he => ?_⟩
  · rw [hhead] at he
    exact Option.some.inj he ▸ hc
  · rw [hlast] at he
    exact Option.some.inj he ▸ hd

open LogicTree in
/-- Groups in groups, with parentheses and commas inside a condition, and one that is empty. -/
theorem ofParams_logicTree_nested :
    let items : List LogicTree := [
      .leaf false "a" "in.(1,(2))",
      .group .and true [.leaf true "not" "is.null", .group .or false []]]
    (∀ t ∈ items, t.WellFormed) ∧
      AliasTree.empty.split "not.or" = ([], groupWord .or true) ∧
      Filters.ofParams (.ofPairs [("not.or", String.ofList (listText items))]) .empty =
        if (group .or true items).levels ≤ Filter.maxNesting then
          (group .or true items).filter.map (Filters.alone [])
        else .error .tooDeep := by
  intro items
  have h : ∀ t ∈ items, t.WellFormed := by
    intro t ht
    rcases List.mem_cons.mp ht with rfl | ht
    · have htrimmed : Text.Trimmed (leafText false "a" "in.(1,(2))") :=
        Text.trimmed_of_ends rfl rfl (by decide) (by decide)
      exact .leaf (by decide) htrimmed (by decide) (by decide) (by decide)
    · obtain rfl := List.mem_singleton.mp ht
      refine .group fun t ht => ?_
      rcases List.mem_cons.mp ht with rfl | ht
      · have htrimmed : Text.Trimmed (leafText true "not" "is.null") :=
          Text.trimmed_of_ends rfl rfl (by decide) (by decide)
        exact .leaf (by decide) htrimmed (by decide) (by decide) (by decide)
      · obtain rfl := List.mem_singleton.mp ht
        exact .group (by simp)
  have hkey : AliasTree.empty.split "not.or" = ([], groupWord .or true) := by decide
  exact ⟨h, hkey, ofParams_logicTree h hkey⟩

end ResourceQuery
