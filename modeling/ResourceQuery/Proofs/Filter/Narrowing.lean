import ResourceQuery.Proofs.Filter.Meaning

/-! # One more pair

A pair that is added to the parameters of a request says something at one place at most: there its key is
new, or has one more value (`routed_push`). A new key is a further conjunct, and so are further values of
a column, of `and` and of `not.or`. The values of `or` and of `not.and` are alternatives, all in one group,
and a further one makes the group wider (`holds_read_append`).

* `narrows_push`: at every place a further pair narrows the filter, unless it repeats one of these two
  keys; then it widens the filter.
* `not_narrows_push`: that does happen, so a request with one more pair may have rows that it did not
  have before. -/

namespace ResourceQuery

/-! ## Values of one key -/

/-- **The names whose values are alternatives.** -/
def OffersAlternatives (name : String) : Prop := name = "or" ∨ name = "not.and"

instance (name : String) : Decidable (OffersAlternatives name) :=
  inferInstanceAs (Decidable (name = "or" ∨ name = "not.and"))

namespace Clause

theorem holds_read_append {key : String} {vs ws : List String} {c : Clause}
    (h : read key (vs ++ ws) = .ok c) :
    ∃ a b, read key vs = .ok a ∧ read key ws = .ok b ∧ ∀ ν, c.holds ν =
      if OffersAlternatives key then a.holds ν || b.holds ν else a.holds ν && b.holds ν := by
  unfold read at h ⊢
  cases hg : Filters.groupKey? key with
  | none =>
    rw [hg] at h
    obtain ⟨cs, hcs, rfl⟩ := Refusal.map_eq_ok.mp h
    obtain ⟨xs, ys, hxs, hys, rfl⟩ := Refusal.mapM_append_eq_ok.mp hcs
    have hcolumn : ¬ OffersAlternatives key := by
      rintro (rfl | rfl)
      · have hor : Filters.groupKey? "or" = some (.or, false) := Filters.groupKey?_eq_some_iff.mpr rfl
        simp [hor] at hg
      · have hand : Filters.groupKey? "not.and" = some (.and, true) :=
          Filters.groupKey?_eq_some_iff.mpr rfl
        simp [hand] at hg
    refine ⟨.column key xs, .column key ys, by simp [hxs, Except.map], by simp [hys, Except.map],
      fun ν => ?_⟩
    rw [if_neg hcolumn]
    simp [holds]
  | some p =>
    obtain ⟨logic, negated⟩ := p
    rw [hg] at h
    obtain ⟨cs, hcs, rfl⟩ := Refusal.map_eq_ok.mp h
    obtain ⟨xs, ys, hxs, hys, rfl⟩ := Refusal.mapM_append_eq_ok.mp hcs
    refine ⟨.group logic negated xs.flatten, .group logic negated ys.flatten,
      by simp [hxs, Except.map], by simp [hys, Except.map], fun ν => ?_⟩
    obtain rfl := Filters.groupKey?_eq_some_iff.mp hg
    -- a group of alternatives grows where it is not negated, a group of conditions where it is
    cases logic <;> cases negated <;>
      simp [holds, OffersAlternatives, LogicTree.groupWord, LogicTree.mark, Logic.word]

/-- So a key that has further values says more, unless they are alternatives; then it says less. -/
theorem holds_of_read_append {key : String} {vs ws : List String} {c c' : Clause}
    (h : read key vs = .ok c) (h' : read key (vs ++ ws) = .ok c') (ν : Valuation) :
    (¬ OffersAlternatives key → c'.holds ν → c.holds ν) ∧
      (OffersAlternatives key → c.holds ν → c'.holds ν) := by
  obtain ⟨a, b, ha, -, hholds⟩ := holds_read_append h'
  obtain rfl : c = a := Except.ok.inj (h.symm.trans ha)
  rw [hholds]
  by_cases hoffers : OffersAlternatives key
  · simp only [if_pos hoffers, Bool.or_eq_true]
    exact ⟨fun hnot => absurd hoffers hnot, fun _ h => Or.inl h⟩
  · simp only [if_neg hoffers, Bool.and_eq_true]
    exact ⟨fun _ h => h.1, fun hdoes => absurd hdoes hoffers⟩

end Clause

namespace Filters

/-! ## Keys at a place -/

theorem routed_push (p : QueryParams) (tree : AliasTree) (path : List String) (key value : String) :
    (∀ name, place? tree key ≠ some (path, name)) ∧
        routed tree path (p.push key value).entries = routed tree path p.entries ∨
      ∃ name, place? tree key = some (path, name) ∧
        (key ∉ Entries.keys p.entries ∧ routed tree path (p.push key value).entries =
            routed tree path p.entries ++ [(name, [value])] ∨
          key ∈ Entries.keys p.entries ∧ ∃ es vs fs,
            routed tree path p.entries = es ++ (name, vs) :: fs ∧
            routed tree path (p.push key value).entries = es ++ (name, vs ++ [value]) :: fs) := by
  rw [QueryParams.entries_push]
  by_cases hplace : ∃ name, place? tree key = some (path, name)
  · right
    obtain ⟨name, hname⟩ := hplace
    have hplaced : ∀ vs, placedAt? tree path (key, vs) = some (name, vs) :=
      fun vs => placedAt?_eq_some.mpr ⟨hname, rfl⟩
    refine ⟨name, hname, ?_⟩
    by_cases hkey : key ∈ Entries.keys p.entries
    · obtain ⟨es, vs, fs, hentries, hupdate⟩ :=
        Entries.update_of_mem hkey (QueryParams.append value)
      refine Or.inr ⟨hkey, routed tree path es, vs, routed tree path fs, ?_, ?_⟩
      · rw [hentries, routed, List.filterMap_append, List.filterMap_cons, hplaced]
        rfl
      · rw [hupdate, routed, List.filterMap_append, List.filterMap_cons, hplaced]
        rfl
    · refine Or.inl ⟨hkey, ?_⟩
      rw [Entries.update_of_not_mem hkey, routed, List.filterMap_append, List.filterMap_cons, hplaced]
      rfl
  · left
    have hplaced : ∀ vs, placedAt? tree path (key, vs) = none := by
      intro vs
      cases h : placedAt? tree path (key, vs) with
      | none => rfl
      | some e => exact absurd ⟨e.1, (placedAt?_eq_some.mp h).1⟩ hplace
    refine ⟨fun name hname => hplace ⟨name, hname⟩, ?_⟩
    by_cases hkey : key ∈ Entries.keys p.entries
    · obtain ⟨es, vs, fs, hentries, hupdate⟩ :=
        Entries.update_of_mem hkey (QueryParams.append value)
      rw [hupdate, hentries]
      simp [routed, List.filterMap_append, hplaced]
    · rw [Entries.update_of_not_mem hkey]
      simp [routed, List.filterMap_append, hplaced]

/-! ## What a pair does to a filter -/

/-- **A pair that adds an alternative at a path**: it repeats a key whose values are alternatives there. -/
def AddsAlternative (p : QueryParams) (tree : AliasTree) (path : List String) (key : String) : Prop :=
  key ∈ Entries.keys p.entries ∧ ∃ name, OffersAlternatives name ∧ place? tree key = some (path, name)

theorem addsAlternative_iff {p : QueryParams} {tree : AliasTree} {path : List String}
    {key name : String} (hkey : key ∈ Entries.keys p.entries)
    (hname : place? tree key = some (path, name)) :
    AddsAlternative p tree path key ↔ OffersAlternatives name := by
  constructor
  · rintro ⟨-, name', hoffers, hplace⟩
    rw [hname] at hplace
    obtain rfl : name = name' := by simpa using hplace
    exact hoffers
  · exact fun hoffers => ⟨hkey, name, hoffers, hname⟩

theorem routed_push_ne_nil {p : QueryParams} {tree : AliasTree} {path : List String}
    (key value : String) (h : routed tree path p.entries ≠ []) :
    routed tree path (p.push key value).entries ≠ [] := by
  rcases routed_push p tree path key value with
    ⟨-, hsame⟩ | ⟨name, -, ⟨-, hnew⟩ | ⟨-, es, vs, fs, -, hnew⟩⟩
  · rwa [hsame]
  · simp [hnew]
  · simp [hnew]

/-- **What the keys at a place say**, before and after one more pair. -/
theorem clauses_push (p : QueryParams) (tree : AliasTree) (path : List String) (key value : String)
    {cs cs' : List Clause} (hcs : (routed tree path p.entries).mapM clauseOf = .ok cs)
    (hcs' : (routed tree path (p.push key value).entries).mapM clauseOf = .ok cs') (ν : Valuation) :
    (¬ AddsAlternative p tree path key → cs'.all (Clause.holds ν) → cs.all (Clause.holds ν)) ∧
      (AddsAlternative p tree path key → cs.all (Clause.holds ν) → cs'.all (Clause.holds ν)) := by
  rcases routed_push p tree path key value with
    ⟨-, hsame⟩ | ⟨name, hname, ⟨hkey, hnew⟩ | ⟨hkey, es, vs, fs, hold, hnew⟩⟩
  · -- the key leads elsewhere
    rw [hsame, hcs] at hcs'
    obtain rfl := Except.ok.inj hcs'
    exact ⟨fun _ h => h, fun _ h => h⟩
  · -- a new key says one thing more
    rw [hnew] at hcs'
    obtain ⟨xs, ys, hxs, -, rfl⟩ := Refusal.mapM_append_eq_ok.mp hcs'
    rw [hcs] at hxs
    obtain rfl := Except.ok.inj hxs
    refine ⟨fun _ h => ?_, fun hadds => absurd hadds.1 hkey⟩
    rw [List.all_append, Bool.and_eq_true] at h
    exact h.1
  · -- one clause of several is replaced
    rw [hold] at hcs
    rw [hnew] at hcs'
    obtain ⟨as, bs, has, hbs, rfl⟩ := Refusal.mapM_append_eq_ok.mp hcs
    obtain ⟨as', bs', has', hbs', rfl⟩ := Refusal.mapM_append_eq_ok.mp hcs'
    obtain ⟨c, ds, hc, hds, rfl⟩ := Refusal.mapM_cons_eq_ok.mp hbs
    obtain ⟨c', ds', hc', hds', rfl⟩ := Refusal.mapM_cons_eq_ok.mp hbs'
    obtain rfl : as = as' := Except.ok.inj (has.symm.trans has')
    obtain rfl : ds = ds' := Except.ok.inj (hds.symm.trans hds')
    have hclause := Clause.holds_of_read_append hc hc' ν
    rw [addsAlternative_iff hkey hname]
    simp only [List.all_append, List.all_cons, Bool.and_eq_true]
    exact ⟨fun hoffers h => ⟨h.1, hclause.1 hoffers h.2.1, h.2.2⟩,
      fun hoffers h => ⟨h.1, hclause.2 hoffers h.2.1, h.2.2⟩⟩

/-- **One more pair narrows a filter**, at every place, unless it adds an alternative there; then it
widens the filter. -/
theorem narrows_push (p : QueryParams) (tree : AliasTree) (key value : String) {fs fs' : Filters}
    (h : ofParams p tree = .ok fs) (h' : ofParams (p.push key value) tree = .ok fs')
    {path : List String} {f : Filter} (hf : at? path fs = some f) :
    ∃ f', at? path fs' = some f' ∧
      (¬ AddsAlternative p tree path key → ∀ ν, Filter.holds ν f' → Filter.holds ν f) ∧
      (AddsAlternative p tree path key → ∀ ν, Filter.holds ν f → Filter.holds ν f') := by
  obtain ⟨⟨cs, hcs, hmeans⟩, hsome⟩ := means_entries h path
  obtain ⟨⟨cs', hcs', hmeans'⟩, hsome'⟩ := means_entries h' path
  obtain ⟨f', hf'⟩ : ∃ f', at? path fs' = some f' := by
    rw [← Option.isSome_iff_exists, hsome']
    exact (hsome.mp (by simp [hf])).imp_right (routed_push_ne_nil key value)
  have hholds : ∀ ν, Filter.holds ν f = cs.all (Clause.holds ν) := by
    simpa [hf] using hmeans.holds
  have hholds' : ∀ ν, Filter.holds ν f' = cs'.all (Clause.holds ν) := by
    simpa [hf'] using hmeans'.holds
  have hpush := clauses_push p tree path key value hcs hcs'
  refine ⟨f', hf', fun hadds ν hν => ?_, fun hadds ν hν => ?_⟩
  · rw [hholds'] at hν
    rw [hholds]
    exact (hpush ν).1 hadds hν
  · rw [hholds] at hν
    rw [hholds']
    exact (hpush ν).2 hadds hν

/-- A column that comes again, with an operator that it has, in a request with an embed. -/
theorem narrows_push_repeated :
    let p : QueryParams := .ofPairs [("a", "eq.x"), ("t.or", "(b.eq.y)")]
    let tree : AliasTree := .node [("t", .empty)]
    ∃ fs fs' f', ofParams p tree = .ok fs ∧ ofParams (p.push "a" "eq.z") tree = .ok fs' ∧
      at? [] fs' = some f' ∧ ¬ AddsAlternative p tree [] "a" ∧
      ∀ ν, Filter.holds ν f' → Filter.holds ν fs.top := by
  intro p tree
  have h : ofParams p tree = .ok ⟨[.column "a" [(.comparison .eq, .value (.str "x"))]],
      [(["t"], [.group .or [[.column "b" [(.comparison .eq, .value (.str "y"))]]]])]⟩ := by
    cbv
  have h' : ofParams (p.push "a" "eq.z") tree =
      .ok ⟨[.column "a" [(.comparison .eq, .value (.str "x"))],
        .group .and [[.column "a" [(.comparison .eq, .value (.str "z"))]]]],
      [(["t"], [.group .or [[.column "b" [(.comparison .eq, .value (.str "y"))]]]])]⟩ := by
    cbv
  have hplace : place? tree "a" = some ([], "a") := by cbv
  have hcolumn : ¬ AddsAlternative p tree [] "a" := by
    rintro ⟨-, name, hoffers, hname⟩
    rw [hplace] at hname
    obtain rfl : "a" = name := by simpa using hname
    exact absurd hoffers (by decide)
  obtain ⟨f', hf', hnarrows, -⟩ := narrows_push p tree "a" "eq.z" h h' (at?_nil _)
  exact ⟨_, _, f', h, h', hf', hcolumn, hnarrows hcolumn⟩

/-- **A pair may widen the filter of a request**: a second `not.and` is not a further negation. -/
theorem not_narrows_push :
    ¬ ∀ (p : QueryParams) (tree : AliasTree) (key value : String) (fs fs' : Filters),
      ofParams p tree = .ok fs → ofParams (p.push key value) tree = .ok fs' →
        ∀ ν, Filter.holds ν fs'.top → Filter.holds ν fs.top := by
  intro hnarrows
  have h : ofParams (.ofPairs [("not.and", "(a.eq.x)")]) .empty =
      .ok ⟨[.negation [.group .and [[.column "a" [(.comparison .eq, .value (.str "x"))]]]]], []⟩ := by
    cbv
  have h' : ofParams (.push "not.and" "(b.eq.y)" (.ofPairs [("not.and", "(a.eq.x)")])) .empty =
      .ok ⟨[.negation [.group .and [[.column "a" [(.comparison .eq, .value (.str "x"))]],
        [.column "b" [(.comparison .eq, .value (.str "y"))]]]]], []⟩ := by
    cbv
  -- `a` is what it must not be, `b` is not
  have hwider := hnarrows _ _ _ _ _ _ h h' (fun column _ _ => column == "a")
  simp [Condition.holds, OperatorMap.holds, Operand.holds] at hwider

end Filters

end ResourceQuery
