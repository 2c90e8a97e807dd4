import ResourceQuery.Proofs.Filter.Meaning

/-! # Where there are conditions

A key with values always says something, so no addition leaves a filter without conditions
(`ne_nil_of_applyKey`). The filter at a place has conditions if and only if some key leads there
(`at?_ne_nil_iff`). -/

namespace ResourceQuery

namespace Filter

theorem joinColumn_ne_nil (name : String) (ops : OperatorMap) (f : Filter) :
    joinColumn name ops f ≠ [] := by
  cases f with
  | nil => simp [joinColumn]
  | cons c f =>
    cases c with
    | column n es =>
      rw [joinColumn]
      split <;> simp
    | group l gs => simp [joinColumn]
    | negation g => simp [joinColumn]

theorem addGroup_ne_nil (logic : Logic) (gs : List Filter) (f : Filter) : f.addGroup logic gs ≠ [] := by
  cases f with
  | nil => simp [addGroup]
  | cons c f =>
    cases c with
    | column n ops => simp [addGroup]
    | group l es =>
      rw [addGroup]
      split <;> simp
    | negation g => simp [addGroup]

theorem addColumn_ne_nil (name : String) (ops : OperatorMap) (f : Filter) :
    f.addColumn name ops ≠ [] := by
  unfold addColumn
  split
  · exact addGroup_ne_nil _ _ _
  · exact joinColumn_ne_nil name ops f

theorem addNegation_ne_nil (f g : Filter) : f.addNegation g ≠ [] := by
  unfold addNegation
  split
  · exact addGroup_ne_nil _ _ _
  · simp

end Filter

namespace Filters

theorem ne_nil_of_addValues {name : String} {values : List String} {f f' : Filter}
    (hne : f ≠ [] ∨ values ≠ []) (h : addValues name values f = .ok f') : f' ≠ [] := by
  induction values generalizing f with
  | nil =>
    obtain rfl := Except.ok.inj h
    exact hne.resolve_right (by simp)
  | cons v vs ih =>
    obtain ⟨ops, -, h⟩ := Refusal.bind_eq_ok.mp h
    exact ih (Or.inl (Filter.addColumn_ne_nil name ops f)) h

theorem ne_nil_of_applyKey {key : String} {values : List String} {f f' : Filter}
    (hvalues : values ≠ []) (h : applyKey key values f = .ok f') : f' ≠ [] := by
  unfold applyKey at h
  split at h
  · rename_i logic negated _
    obtain ⟨gs, -, h⟩ := Refusal.bind_eq_ok.mp h
    obtain rfl := Except.ok.inj h
    cases negated with
    | false => exact Filter.addGroup_ne_nil logic gs f
    | true => exact Filter.addNegation_ne_nil f _
  · exact ne_nil_of_addValues (Or.inr hvalues) h

theorem foldlM_applyEntry_ne_nil_iff {es : List (String × List String)} (hvalues : ∀ e ∈ es, e.2 ≠ [])
    {f f' : Filter} (h : es.foldlM applyEntry f = .ok f') : f' ≠ [] ↔ f ≠ [] ∨ es ≠ [] := by
  induction es generalizing f with
  | nil =>
    obtain rfl : f = f' := Except.ok.inj h
    simp
  | cons e es ih =>
    obtain ⟨g, hg, h⟩ := Refusal.foldlM_cons_eq_ok.mp h
    have hne : g ≠ [] := ne_nil_of_applyKey (hvalues e (by simp)) hg
    rw [ih (fun d hd => hvalues d (by simp [hd])) h]
    simp [hne]

/-- **There are conditions at a place if and only if a key leads there.** -/
theorem at?_ne_nil_iff {params : QueryParams} {tree : AliasTree} {fs : Filters}
    (h : ofParams params tree = .ok fs) (path : List String) :
    (at? path fs).getD [] ≠ [] ↔ routed tree path params.entries ≠ [] := by
  have hvalues : ∀ e ∈ routed tree path params.entries, e.2 ≠ [] := by
    intro e he
    obtain ⟨d, hd, hplaced⟩ := List.mem_filterMap.mp he
    rw [(placedAt?_eq_some.mp hplaced).2]
    exact params.values_ne_nil d hd
  have hempty : (at? path ⟨[], []⟩).getD [] = [] := by
    by_cases hp : path = [] <;> simp [at?, hp]
  have hiff := foldlM_applyEntry_ne_nil_iff hvalues (at?_foldlM tree path _ h).1
  rw [hiff, hempty]
  simp

/-- **No embed has a filter without conditions.** -/
theorem ne_nil_of_embedded {params : QueryParams} {tree : AliasTree} {fs : Filters}
    (h : ofParams params tree = .ok fs) {path : List String} (hpath : path ≠ []) {f : Filter}
    (hf : Entries.get? path fs.embedded = some f) : f ≠ [] := by
  have hat : at? path fs = some f := by rw [at?, if_neg hpath, hf]
  have hsome := (means_entries h path).2.mp (by rw [hat]; rfl)
  have hne := (at?_ne_nil_iff h path).mpr (hsome.resolve_left (by simp [at?, hpath]))
  rwa [hat] at hne

end Filters

end ResourceQuery
