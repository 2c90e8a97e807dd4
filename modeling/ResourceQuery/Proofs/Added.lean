import ResourceQuery.Proofs.Filter.Meaning
import ResourceQuery.Proofs.Windows

/-! # One more condition

A further pair whose key is a column somewhere is a further conjunct of the filter there
(`holds_at?_added`), and all other filters stay as they are (`at?_added_of_ne`), as do all windows
(`Windows.at?_added`). Nothing that was accepted is refused for it. -/

namespace ResourceQuery

open QueryParams (collected valuesOf)

variable {before after : List (String × String)} {key value : String} {tree : AliasTree}

/-! ## Filters -/

namespace Filters

variable {path : List String} {name : String} {ops : OperatorMap} {fs fs' : Filters}
  (hplace : place? tree key = some (path, name))

include hplace in
theorem routed_added_of_ne {q : List String} (hq : q ≠ path) :
    routed tree q (collected (before ++ (key, value) :: after)) =
      routed tree q (collected (before ++ after)) := by
  have hnone : ∀ values, placedAt? tree q (key, values) = none := by
    intro values
    simp [placedAt?, hplace, Ne.symm hq]
  rw [routed, routed, ← Entries.filterMap_filter_ne hnone, QueryParams.collected_added_filter,
    Entries.filterMap_filter_ne hnone]

include hplace in
theorem at?_added_of_ne (h : ofParams (.ofPairs (before ++ after)) tree = .ok fs)
    (h' : ofParams (.ofPairs (before ++ (key, value) :: after)) tree = .ok fs') {q : List String}
    (hq : q ≠ path) : at? q fs' = at? q fs := by
  have hrouted : routed tree q (collected (before ++ (key, value) :: after)) =
      routed tree q (collected (before ++ after)) := routed_added_of_ne hplace hq
  obtain ⟨hfold, hsome⟩ := at?_foldlM tree q _ h
  obtain ⟨hfold', hsome'⟩ := at?_foldlM tree q _ h'
  rw [QueryParams.entries_ofPairs] at hfold hsome hfold' hsome'
  rw [hrouted, hfold] at hfold'
  rw [hrouted, ← hsome] at hsome'
  have hfilter := Except.ok.inj hfold'
  cases hat : at? q fs <;> cases hat' : at? q fs' <;> simp_all

section Column

variable {pairs : List (String × String)} (hgroup : groupKey? name = none)

include hplace hgroup in
theorem exists_ofParams_iff_column : (∃ fs, ofParams (.ofPairs pairs) tree = .ok fs) ↔
    (∀ e ∈ collected pairs, e.1 ≠ key → ∀ path' name', place? tree e.1 = some (path', name') →
      ∃ c, Clause.read name' e.2 = .ok c) ∧
    ∀ v ∈ valuesOf key pairs, ∃ ops, FilterValue.parse v = .ok ops := by
  rw [exists_ofParams_iff, QueryParams.entries_ofPairs]
  constructor
  · intro hread
    refine ⟨fun e he _ => hread e he, fun v hv => ?_⟩
    have hentry : (key, valuesOf key pairs) ∈ collected pairs :=
      QueryParams.mem_collected.mpr ⟨rfl, List.ne_nil_of_mem hv⟩
    exact (Clause.exists_read_column_iff hgroup).mp (hread _ hentry path name hplace) v hv
  · rintro ⟨hothers, hvalues⟩ e he path' name' hplace'
    by_cases hkey : e.1 = key
    · rw [hkey, hplace] at hplace'
      obtain ⟨rfl, rfl⟩ := Prod.mk.inj (Option.some.inj hplace')
      rw [Clause.exists_read_column_iff hgroup, (QueryParams.mem_collected.mp he).1, hkey]
      exact hvalues
    · exact hothers e he hkey path' name' hplace'

include hplace hgroup in
/-- **A column holds value by value**, apart from the other keys at its place. -/
theorem holds_at?_iff_column (h : ofParams (.ofPairs pairs) tree = .ok fs) (ν : Valuation) :
    Filter.holds ν ((at? path fs).getD []) = true ↔
      (∀ e ∈ collected pairs, e.1 ≠ key → ∀ name' c, place? tree e.1 = some (path, name') →
        Clause.read name' e.2 = .ok c → c.holds ν = true) ∧
      ∀ v ∈ valuesOf key pairs, ∀ ops, FilterValue.parse v = .ok ops →
        OperatorMap.holds ν name ops = true := by
  rw [holds_at?_iff h, QueryParams.entries_ofPairs]
  constructor
  · intro hall
    refine ⟨fun e he _ => hall e he, fun v hv => ?_⟩
    have hentry : (key, valuesOf key pairs) ∈ collected pairs :=
      QueryParams.mem_collected.mpr ⟨rfl, List.ne_nil_of_mem hv⟩
    obtain ⟨c, hc⟩ := (Clause.exists_read_column_iff hgroup).mpr
      ((exists_ofParams_iff_column hplace hgroup).mp ⟨fs, h⟩).2
    exact (Clause.holds_column_iff hgroup hc).mp (hall _ hentry name c hplace hc) v hv
  · rintro ⟨hothers, hvalues⟩ e he name' c hplace' hc
    by_cases hkey : e.1 = key
    · rw [hkey, hplace] at hplace'
      obtain ⟨-, rfl⟩ := Prod.mk.inj (Option.some.inj hplace')
      rw [Clause.holds_column_iff hgroup hc, (QueryParams.mem_collected.mp he).1, hkey]
      exact hvalues
    · exact hothers e he hkey name' c hplace' hc

end Column

variable (hgroup : groupKey? name = none) (hops : FilterValue.parse value = .ok ops)

include hplace hgroup hops in
/-- **A value of a column that can be read is not refused.** -/
theorem exists_ofParams_added (h : ofParams (.ofPairs (before ++ after)) tree = .ok fs) :
    ∃ fs', ofParams (.ofPairs (before ++ (key, value) :: after)) tree = .ok fs' := by
  obtain ⟨hothers, hvalues⟩ := (exists_ofParams_iff_column hplace hgroup).mp ⟨fs, h⟩
  refine (exists_ofParams_iff_column hplace hgroup).mpr ⟨fun e he hkey => ?_, fun v hv => ?_⟩
  · exact hothers e ((QueryParams.mem_collected_added_of_ne hkey).mp he) hkey
  · rcases QueryParams.mem_valuesOf_added.mp hv with rfl | hv
    · exact ⟨ops, hops⟩
    · exact hvalues v hv

include hplace hgroup hops in
/-- **It is a further conjunct** of the filter at its place. -/
theorem holds_at?_added (h : ofParams (.ofPairs (before ++ after)) tree = .ok fs)
    (h' : ofParams (.ofPairs (before ++ (key, value) :: after)) tree = .ok fs') (ν : Valuation) :
    Filter.holds ν ((at? path fs').getD []) =
      (Filter.holds ν ((at? path fs).getD []) && OperatorMap.holds ν name ops) := by
  rw [Bool.eq_iff_iff, Bool.and_eq_true, holds_at?_iff_column hplace hgroup h,
    holds_at?_iff_column hplace hgroup h', and_assoc]
  refine and_congr ?_ ?_
  · refine forall_congr' fun e => ⟨fun hall he hkey => ?_, fun hall he hkey => ?_⟩
    · exact hall ((QueryParams.mem_collected_added_of_ne hkey).mpr he) hkey
    · exact hall ((QueryParams.mem_collected_added_of_ne hkey).mp he) hkey
  · simp only [QueryParams.mem_valuesOf_added]
    constructor
    · intro hall
      exact ⟨fun v hv => hall v (Or.inr hv), hall value (Or.inl rfl) ops hops⟩
    · rintro ⟨hall, hholds⟩ v (rfl | hv) ops' hops'
      · rwa [Except.ok.inj (hops'.symm.trans hops)]
      · exact hall v hv ops' hops'

end Filters

/-! ## Windows -/

namespace Windows

variable {ws ws' : Windows} (hkey : isWindowKey (tree.split key).2 = false)

include hkey in
theorem routed_added (path : List String) :
    routed tree path (collected (before ++ (key, value) :: after)) =
      routed tree path (collected (before ++ after)) := by
  have hnone : ∀ values, placedAt? tree path (key, values) = none := by
    intro values
    simp [placedAt?, hkey]
  rw [routed, routed, ← Entries.filterMap_filter_ne hnone, QueryParams.collected_added_filter,
    Entries.filterMap_filter_ne hnone]

include hkey in
theorem at?_added (h : ofParams (.ofPairs (before ++ after)) tree = .ok ws)
    (h' : ofParams (.ofPairs (before ++ (key, value) :: after)) tree = .ok ws') (path : List String) :
    at? path ws' = at? path ws := by
  rw [at?_ofParams h, at?_ofParams h', QueryParams.entries_ofPairs, QueryParams.entries_ofPairs,
    routed_added hkey]

include hkey in
theorem exists_ofParams_added (value : String) (h : ofParams (.ofPairs (before ++ after)) tree = .ok ws) :
    ∃ ws', ofParams (.ofPairs (before ++ (key, value) :: after)) tree = .ok ws' := by
  have hread := (exists_ofParams_iff _ tree).mp ⟨ws, h⟩
  rw [QueryParams.entries_ofPairs] at hread
  rw [exists_ofParams_iff, QueryParams.entries_ofPairs]
  intro e he
  by_cases hk : e.1 = key
  · -- a key of another name says nothing that could not be read
    rintro (hlimit | hoffset)
    · rw [← hk, hlimit] at hkey
      exact absurd hkey (by decide)
    · rw [← hk, hoffset] at hkey
      exact absurd hkey (by decide)
  · exact hread e ((QueryParams.mem_collected_added_of_ne hk).mp he)

end Windows

end ResourceQuery
