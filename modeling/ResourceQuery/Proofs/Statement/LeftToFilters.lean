import ResourceQuery.Proofs.Filter.Words
import ResourceQuery.Proofs.Statement.QueryCall

/-! # What a call leaves to the filters can be read

A call in the query string takes a value for a filter by its look, before any filter is read. With a point
in it, and but for a text search with its configuration, a value is left to the filters if and only if its
first word is one of the filter language; the key plays no part, so a logical group never is. What can be
read as a condition on a column is left to them, and what is left can be read unless it misleads
(`Call.sorts`). -/

namespace ResourceQuery

/-! ## One pair -/

/-- **A call leaves a pair to the filters.** -/
def Call.Leaves (key value : String) : Prop :=
  (key, value) ∈ (Call.filterParams (.ofPairs [(key, value)])).pairs

theorem Call.leaves_iff {key value : String} (hkey : isReserved key = false) :
    Leaves key value ↔ looksLikeFilter value = true := by
  rw [Leaves, mem_filterParams, QueryParams.mem_pairs_ofPairs]
  simp [hkey]

theorem Filters.ofParams_single {key : String} (hkey : isReserved key = false) (value : String) :
    ofParams (.ofPairs [(key, value)]) .empty =
      (Clause.read key [value]).map fun c => ⟨c.addTo [], []⟩ := by
  have hplace : place? .empty key = some ([], key) := by
    simp [place?, hkey, AliasTree.split_empty]
  have hentries : (QueryParams.ofPairs [(key, value)]).entries = [(key, [value])] := rfl
  rw [ofParams, hentries, List.foldlM_cons, step_eq, hplace]
  dsimp only [modify]
  rw [Clause.applyKey_eq]
  cases Clause.read key [value] <;> rfl

theorem Filters.ofParams_single_column {key : String} (hkey : isReserved key = false)
    (hgroup : groupKey? key = none) (value : String) :
    ofParams (.ofPairs [(key, value)]) .empty =
      (FilterValue.parse value).map fun ops => ⟨(Clause.column key [ops]).addTo [], []⟩ := by
  rw [ofParams_single hkey, Clause.read_column hgroup, List.mapM_cons]
  cases FilterValue.parse value <;> rfl

/-! ## What is left -/

namespace FilterValue

/-- **What looks like a filter and cannot be read misleads**, and the error names its word. -/
theorem misleads_of_parse_eq_error {value : String} {e : FilterError} (hlooks : looksLikeFilter value = true)
    (h : parse value = .error e) : Misleads value ∧ e = .unknownOperator (String.ofList (word value)) := by
  refine ⟨?_, (parse_eq_error.mp h).2⟩
  obtain ⟨lead, rest, hvalue, hfilter⟩ := looksLikeFilter_iff.mp hlooks
  have hiff := exists_parse_iff hvalue hfilter.not_mem (not_configured_of_looksLikeFilter hlooks)
  by_contra hmisleads
  obtain ⟨ops, hops⟩ := hiff.mpr ⟨hfilter, hmisleads⟩
  rw [h] at hops
  exact absurd hops (by simp)

end FilterValue

/-- **The filters of a call are refused** for a logical group or for a value that misleads. -/
theorem Filters.misleads_of_filterParams {params : QueryParams} {tree : AliasTree} {err : FilterError}
    (h : ofParams (Call.filterParams params) tree = .error err) :
    ∃ key value path name, (key, value) ∈ (Call.filterParams params).pairs ∧
      place? tree key = some (path, name) ∧ ((groupKey? name).isSome ∨
        FilterValue.Misleads value ∧ err = .unknownOperator (String.ofList (FilterValue.word value))) := by
  obtain ⟨e, he, path, name, hplace, hread⟩ := exists_of_ofParams_eq_error h
  obtain ⟨key, values⟩ := e
  have hpair : ∀ v ∈ values, (key, v) ∈ (Call.filterParams params).pairs :=
    fun v hv => QueryParams.mem_pairs_iff.mpr ⟨values, he, hv⟩
  cases hgroup : groupKey? name with
  | some group =>
    obtain ⟨v, hv⟩ := List.exists_mem_of_ne_nil _ ((Call.filterParams params).values_ne_nil _ he)
    exact ⟨key, v, path, name, hpair v hv, hplace, Or.inl (by simp [hgroup])⟩
  | none =>
    rw [Clause.read_column hgroup, Refusal.map_eq_error] at hread
    obtain ⟨v, hv, hparse⟩ := Refusal.exists_of_mapM_eq_error hread
    have hkey : isReserved key ≠ true := by
      intro hkey
      simp [place?, hkey] at hplace
    have hlooks := (Call.mem_filterParams.mp (hpair v hv)).2.resolve_left hkey
    have hmisleads := FilterValue.misleads_of_parse_eq_error hlooks hparse
    exact ⟨key, v, path, name, hpair v hv, hplace, Or.inr hmisleads⟩

/-- **How a call sorts out a pair** whose value has a point. -/
structure Call.Sorts (key value : String) : Prop where
  /-- It is left to the filters for the first word of its value; the key plays no part. -/
  leaves_iff : Leaves key value ↔ ∃ lead rest, value.toList = lead ++ '.' :: rest ∧ LooksLikeFilter lead
  /-- As a condition on a column it can be read if and only if it is left to them and does not mislead. -/
  accepted_iff : Filters.groupKey? key = Option.none →
    ((∃ fs, Filters.ofParams (.ofPairs [(key, value)]) .empty = .ok fs) ↔
      Leaves key value ∧ ¬ FilterValue.Misleads value)
  /-- What misleads is left to them, and refused with its word. -/
  refused : Filters.groupKey? key = Option.none → FilterValue.Misleads value →
    Leaves key value ∧ Filters.ofParams (.ofPairs [(key, value)]) .empty =
      .error (.unknownOperator (String.ofList (FilterValue.word value)))

theorem Call.sorts {key value : String} (hkey : isReserved key = false) (hpoint : '.' ∈ value.toList)
    (hsearch : ¬ FilterValue.Configured value) : Sorts key value := by
  obtain ⟨lead, rest, hvalue, hlead⟩ := List.eq_append_cons_of_mem hpoint
  have hlooks : looksLikeFilter value = true ↔ LooksLikeFilter lead := by
    rw [looksLikeFilter_iff]
    constructor
    · rintro ⟨lead', rest', hvalue', hfilter⟩
      rwa [FilterValue.lead_unique hlead hfilter.not_mem (hvalue.symm.trans hvalue')]
    · intro hfilter
      exact ⟨lead, rest, hvalue, hfilter⟩
  have hparse := FilterValue.exists_parse_iff hvalue hlead hsearch
  refine ⟨by rw [leaves_iff hkey, looksLikeFilter_iff], fun hgroup => ?_, fun hgroup hmisleads => ⟨?_, ?_⟩⟩
  · rw [Filters.ofParams_single_column hkey hgroup, leaves_iff hkey, hlooks, ← hparse]
    simp only [Refusal.map_eq_ok]
    constructor
    · rintro ⟨fs, ops, hops, -⟩
      exact ⟨ops, hops⟩
    · rintro ⟨ops, hops⟩
      exact ⟨_, ops, hops, rfl⟩
  · rw [leaves_iff hkey]
    exact FilterValue.looksLikeFilter_of_misleads hmisleads
  · rw [Filters.ofParams_single_column hkey hgroup]
    cases hread : FilterValue.parse value with
    | ok ops => exact absurd hmisleads (hparse.mp ⟨ops, hread⟩).2
    | error e =>
      rw [(FilterValue.parse_eq_error.mp hread).2]
      rfl

/-- **A call in the query string and its filters.** However a pair is sorted out, of a call that is accepted
no condition on a column becomes an argument, and none gets lost; and a call whose filters are refused has a
logical group among what it leaves to them, or a value that misleads. -/
theorem sorts_of_call {basePath : String} {r : Request} {u : Url} (hurl : Url.parse r.target = .ok u)
    (hcall : (Target.parse u.path basePath).isCall = true) (hmethod : r.method ≠ .post) :
    (∀ key value, isReserved key = false → '.' ∈ value.toList → ¬ FilterValue.Configured value →
      Call.Sorts key value) ∧
    (∀ s, Translator.translate { basePath } r = .ok s → ∀ key value ops, isReserved key = false →
      (key, value) ∈ u.params.pairs → '.' ∈ value.toList → ¬ FilterValue.Configured value →
      FilterValue.parse value = .ok ops →
      (u.params.first? key = some value → ∀ args, s.call.args = some (.obj args) →
        key ∉ Entries.keys args) ∧
      ∀ sel path name, Select.parse (u.params.first? "select") = .ok sel →
        Filters.place? sel.aliases key = some (path, name) → Filters.groupKey? name = none →
        (∃ note, s.ConditionsAt path note) ∧ ∀ note, s.ConditionsAt path note → ∀ ν,
          Filter.holds ν (note.filter.getD []) = true → OperatorMap.holds ν name ops = true) ∧
    ∀ err, Translator.translate { basePath } r = .error (.filter err) →
      ∃ sel, Select.parse (u.params.first? "select") = .ok sel ∧
        ∃ key value path name, (key, value) ∈ (Call.filterParams u.params).pairs ∧
          Filters.place? sel.aliases key = some (path, name) ∧ ((Filters.groupKey? name).isSome ∨
            FilterValue.Misleads value ∧ err = .unknownOperator (String.ofList (FilterValue.word value))) := by
  have hquery : Call.fromQuery (Target.parse u.path basePath) r.method = true := by
    simp [Call.fromQuery, hcall, hmethod]
  refine ⟨fun key value hkey hpoint hsearch => Call.sorts hkey hpoint hsearch, ?_, ?_⟩
  · intro s hs key value ops hkey hpair hpoint hsearch hops
    obtain ⟨p, hread, rfl⟩ := Translator.translate_eq_ok.mp hs
    obtain rfl : u = p.url := Except.ok.inj (hurl.symm.trans hread.url)
    have hlooks := FilterValue.looksLikeFilter_of_parse hpoint hsearch hops
    constructor
    · intro hfirst args hargs
      rw [Parts.ReadFrom.call_eq hcall hmethod] at hargs
      have hget := Call.get?_arguments hkey hfirst
      rw [if_pos hlooks] at hget
      rw [← (Call.args_ofParams.mp hargs).1]
      exact Entries.get?_eq_none_iff.mp hget
    · intro sel path name hsel hplace hgroup
      obtain rfl : sel = p.selection := Except.ok.inj (hsel.symm.trans hread.selection)
      have hleft := Call.mem_filterParams.mpr ⟨hpair, Or.inr hlooks⟩
      obtain ⟨values, he, hvalue⟩ := QueryParams.mem_pairs_iff.mp hleft
      obtain ⟨c, hc, hholds⟩ :=
        Filters.exists_clause_of_place? (hread.filters_of_call hcall hmethod) he hplace
      refine ⟨?_, fun note hat ν hν => ?_⟩
      · have hexists := hread.exists_conditionsAt key
        rwa [Filters.split_of_place? hplace] at hexists
      · rw [Parts.filter_eq hat] at hν
        exact (Clause.holds_column_iff hgroup hc).mp (hholds ν hν) value hvalue ops hops
  · intro err herr
    obtain ⟨url, sel, hparse, hselect, hfilters⟩ := Translator.filters_of_translate_eq_error herr
    obtain rfl : u = url := Except.ok.inj (hurl.symm.trans hparse)
    have hleft : Filters.ofParams (Call.filterParams u.params) sel.aliases = .error err := by
      have hparams : Translator.filterParams (Target.parse u.path basePath) r.method u.params =
          Call.filterParams u.params := if_pos hquery
      rw [← hparams]
      exact hfilters
    exact ⟨sel, hselect, Filters.misleads_of_filterParams hleft⟩

/-- An argument and a condition, and a value that misleads. -/
theorem sorts_of_call_split :
    let r : Request := ⟨.get, "/rpc/f?x=eq.y&z=u", [], [], none⟩
    Url.parse r.target = .ok ⟨"/rpc/f", some "x=eq.y&z=u"⟩ ∧
      (Target.parse "/rpc/f" "/rest/v1").isCall = true ∧ r.method ≠ .post ∧
      Call.Sorts "x" "not.b.y" ∧ ∃ s, Translator.translate {} r = .ok s ∧
        s.call.args = some (.obj [("z", .str "u")]) ∧ ∀ note, s.ConditionsAt [] note → ∀ ν,
          Filter.holds ν (note.filter.getD []) = true →
            OperatorMap.holds ν "x" [(.comparison .eq, .value (.str "y"))] = true := by
  intro r
  have hurl : Url.parse "/rpc/f?x=eq.y&z=u" = .ok ⟨"/rpc/f", some "x=eq.y&z=u"⟩ := by rfl
  have htarget : Target.parse "/rpc/f" "/rest/v1" = .function "f" := by rfl
  let p : Parts := ⟨⟨"/rpc/f", some "x=eq.y&z=u"⟩, .ofNodes [], .empty,
    ⟨[.column "x" [(.comparison .eq, .value (.str "y"))]], []⟩, ⟨.all, []⟩⟩
  have hread : p.ReadFrom {} r := by
    refine ⟨hurl, ?_, ?_, ?_, ?_⟩
    all_goals cbv
  have hcall : (Target.parse "/rpc/f" "/rest/v1").isCall = true := congrArg Target.isCall htarget
  have hmethod : r.method ≠ .post := by decide
  have hsearch : ∀ value, looksLikeFilter value = true → ¬ FilterValue.Configured value :=
    fun _ => FilterValue.not_configured_of_looksLikeFilter
  have hsorts := sorts_of_call (r := r) hurl hcall hmethod
  have hmisleads : Call.Sorts "x" "not.b.y" :=
    hsorts.1 "x" "not.b.y" (by decide) (by decide) (hsearch _ (by decide))
  have hargs : (p.statement {} r).call.args = some (.obj [("z", .str "u")]) := by
    have hquery : (p.target {}).isCall = true := by
      rw [(p.target_statement r htarget).1]
      rfl
    rw [Parts.ReadFrom.call_eq hquery hmethod]
    cbv
  have hpairs : (Url.params ⟨"/rpc/f", some "x=eq.y&z=u"⟩).pairs = [("x", "eq.y"), ("z", "u")] := by cbv
  have hcondition := hsorts.2.1 _ hread.translate_eq "x" "eq.y" [(.comparison .eq, .value (.str "y"))]
    (by decide) (by simp [hpairs]) (by decide) (hsearch _ (by decide)) (by cbv)
  have hholds := (hcondition.2 (.ofNodes []) [] "x" (by cbv) (by cbv) (by decide)).2
  exact ⟨hurl, hcall, hmethod, hmisleads, _, hread.translate_eq, hargs, hholds⟩

/-- **Reading and looking differ**: a negation of no operator is left to the filters, and a group is not, nor a
text search with its configuration. -/
theorem exists_misjudged :
    (isReserved "x" = false ∧ '.' ∈ "not.b.y".toList ∧ Call.Leaves "x" "not.b.y" ∧
      ¬ ∃ fs, Filters.ofParams (.ofPairs [("x", "not.b.y")]) .empty = .ok fs) ∧
    (isReserved "or" = false ∧ '.' ∈ "(a.eq.x)".toList ∧ ¬ Call.Leaves "or" "(a.eq.x)" ∧
      ∃ fs, Filters.ofParams (.ofPairs [("or", "(a.eq.x)")]) .empty = .ok fs) ∧
    '.' ∈ "fts(c).y".toList ∧ ¬ Call.Leaves "x" "fts(c).y" ∧
      ∃ fs, Filters.ofParams (.ofPairs [("x", "fts(c).y")]) .empty = .ok fs := by
  have hrefused : Filters.ofParams (.ofPairs [("x", "not.b.y")]) .empty = .error (.unknownOperator "b") := by
    cbv
  have hgroup : Filters.ofParams (.ofPairs [("or", "(a.eq.x)")]) .empty =
      .ok ⟨[.group .or [[.column "a" [(.comparison .eq, .value (.str "x"))]]]], []⟩ := by
    cbv
  have hsearch : Filters.ofParams (.ofPairs [("x", "fts(c).y")]) .empty =
      .ok ⟨[.column "x" [(.textSearch, .textSearch ⟨"y", none, some "c"⟩)]], []⟩ := by
    cbv
  refine ⟨⟨by decide, by decide, (Call.leaves_iff (by decide)).mpr (by decide), ?_⟩,
    ⟨by decide, by decide, ?_, _, hgroup⟩, by decide, ?_, _, hsearch⟩
  · rw [hrefused]
    simp
  · rw [Call.leaves_iff (by decide)]
    decide
  · rw [Call.leaves_iff (by decide)]
    decide

end ResourceQuery
