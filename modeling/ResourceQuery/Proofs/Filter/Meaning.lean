import Mathlib
import ResourceQuery.Proofs.Collected
import ResourceQuery.Proofs.Filter.Clauses
import ResourceQuery.Proofs.KeySplit

/-! # What the filters of a request mean

A filter key goes to one place: the request itself, or an embed by its path. The filter there is what the
clauses of its keys say together, and nothing else: it holds if and only if they all do, and its atoms are
theirs, each as often (`means_ofPairs`). An embed has a filter if and only if a key leads to it.

The parameters are read one after the other, and each changes the filter at its place alone
(`at?_modify`); so what happens at a path is a fold over the keys that lead there (`at?_foldlM`). Of these
no two are equal, so at most one of them is `or` (`nodup_routed`). -/

namespace ResourceQuery.Filters

/-! ## Places -/

/-- **Where a filter key goes**: the labels of an embed, none for the request itself, and the key there. A
reserved key is no filter, nor is one that orders or cuts the rows of an embed. -/
def place? (tree : AliasTree) (key : String) : Option (List String × String) :=
  if isReserved key then none
  else if (tree.split key).1 ≠ [] ∧ isWindowKey (tree.split key).2 then none
  else some (tree.split key)

/-- A parameter as it is called at a path, if it is a filter there. -/
def placedAt? (tree : AliasTree) (path : List String) (e : String × List String) :
    Option (String × List String) :=
  (place? tree e.1).bind fun p => if p.1 = path then some (p.2, e.2) else none

/-- **The filter keys that lead to a path**, as they are called there, with their values. -/
def routed (tree : AliasTree) (path : List String) (entries : List (String × List String)) :
    List (String × List String) :=
  entries.filterMap (placedAt? tree path)

/-- The filter at a path; that of the request itself is always there. -/
def at? (path : List String) (fs : Filters) : Option Filter :=
  if path = [] then some fs.top else Entries.get? path fs.embedded

theorem at?_nil (fs : Filters) : at? [] fs = some fs.top := rfl

theorem split_of_place? {tree : AliasTree} {key rest : String} {path : List String}
    (h : place? tree key = some (path, rest)) : tree.split key = (path, rest) := by
  unfold place? at h
  split at h
  · simp at h
  · split at h
    · simp at h
    · exact Option.some.inj h

theorem place?_of_not_window {tree : AliasTree} {key : String} (hkey : isReserved key = false)
    (hwindow : isWindowKey (tree.split key).2 = false) :
    place? tree key = some (tree.split key) := by
  simp [place?, hkey, hwindow]

theorem placedAt?_eq_some {tree : AliasTree} {path : List String} {e e' : String × List String} :
    placedAt? tree path e = some e' ↔ place? tree e.1 = some (path, e'.1) ∧ e'.2 = e.2 := by
  obtain ⟨key, values⟩ := e'
  unfold placedAt?
  cases hp : place? tree e.1 with
  | none => simp
  | some p =>
    obtain ⟨path', rest⟩ := p
    by_cases hpath : path' = path
    · simp [hpath, eq_comm]
    · simp [hpath]

theorem routed_eq_nil_iff {tree : AliasTree} {path : List String} {pairs : List (String × String)} :
    routed tree path (QueryParams.collected pairs) = [] ↔
      ¬ ∃ e ∈ pairs, ∃ key, place? tree e.1 = some (path, key) := by
  rw [routed, List.filterMap_eq_nil_iff]
  constructor
  · rintro h ⟨e, he, key, hkey⟩
    have hmem : (e.1, QueryParams.valuesOf e.1 pairs) ∈ QueryParams.collected pairs :=
      List.mem_map.mpr ⟨e.1, List.mem_eraseDups.mpr (List.mem_map.mpr ⟨e, he, rfl⟩), rfl⟩
    have hsome : placedAt? tree path (e.1, QueryParams.valuesOf e.1 pairs) =
        some (key, QueryParams.valuesOf e.1 pairs) := placedAt?_eq_some.mpr ⟨hkey, rfl⟩
    rw [h _ hmem] at hsome
    simp at hsome
  · intro h a ha
    obtain ⟨k, hk, rfl⟩ := List.mem_map.mp ha
    obtain ⟨e, he, rfl⟩ := List.mem_map.mp (List.mem_eraseDups.mp hk)
    cases hp : placedAt? tree path (e.1, QueryParams.valuesOf e.1 pairs) with
    | none => rfl
    | some e' => exact absurd ⟨e, he, e'.1, (placedAt?_eq_some.mp hp).1⟩ h

theorem nodup_routed (tree : AliasTree) (path : List String)
    {entries : List (String × List String)} (h : (Entries.keys entries).Nodup) :
    (Entries.keys (routed tree path entries)).Nodup := by
  refine Entries.nodup_keys_filterMap h fun d e d' e' hd he hname => ?_
  -- two keys with one name at one path are the same key
  have h1 := split_of_place? (placedAt?_eq_some.mp hd).1
  have h2 := split_of_place? (placedAt?_eq_some.mp he).1
  rw [← hname, ← h1] at h2
  exact AliasTree.split_inj tree h2.symm

/-! ## One parameter, and all of them -/

theorem at?_modify {path : List String} {change : Filter → Except FilterError Filter}
    {fs fs' : Filters} (h : modify path change fs = .ok fs') :
    ∃ f, change ((at? path fs).getD []) = .ok f ∧
      ∀ p, at? p fs' = if p = path then some f else at? p fs := by
  unfold modify at h
  split at h
  · obtain ⟨f, hf, rfl⟩ := Refusal.map_eq_ok.mp h
    exact ⟨f, by simpa [at?] using hf, fun p => by by_cases hp : p = [] <;> simp [at?, hp]⟩
  · rename_i hne
    have hne : path ≠ [] := fun hp => hne hp
    obtain ⟨f, hf, rfl⟩ := Refusal.map_eq_ok.mp h
    refine ⟨f, by simpa [at?, hne] using hf, fun p => ?_⟩
    by_cases hp : p = []
    · subst hp
      simp [at?, Ne.symm hne]
    · simp [at?, hp, eq_comm]

theorem exists_modify_iff {path : List String} {change : Filter → Except FilterError Filter}
    {fs : Filters} :
    (∃ fs', modify path change fs = .ok fs') ↔ ∃ f, change ((at? path fs).getD []) = .ok f := by
  constructor
  · rintro ⟨fs', h⟩
    obtain ⟨f, hf, -⟩ := at?_modify h
    exact ⟨f, hf⟩
  · rintro ⟨f, hf⟩
    unfold modify
    split
    · exact ⟨_, Refusal.map_eq_ok.mpr ⟨f, by simpa [at?] using hf, rfl⟩⟩
    · rename_i hne
      rw [at?, if_neg fun hp => hne hp] at hf
      exact ⟨_, Refusal.map_eq_ok.mpr ⟨f, hf, rfl⟩⟩

theorem step_eq (tree : AliasTree) (fs : Filters) (e : String × List String) :
    step tree fs e =
      match place? tree e.1 with
      | none => .ok fs
      | some (path, key) => modify path (applyKey key e.2) fs := by
  unfold step place?
  split
  · rfl
  · simp only
    split <;> rfl

/-- What one parameter does to a filter, under the name it has there. -/
def applyEntry (f : Filter) (e : String × List String) : Except FilterError Filter :=
  applyKey e.1 e.2 f

/-- **What parameters do at a path** is what the keys that lead there do, one after the other. -/
theorem at?_foldlM (tree : AliasTree) (path : List String) (es : List (String × List String))
    {fs fs' : Filters} (h : es.foldlM (step tree) fs = .ok fs') :
    (routed tree path es).foldlM applyEntry ((at? path fs).getD []) = .ok ((at? path fs').getD []) ∧
      ((at? path fs').isSome ↔ (at? path fs).isSome ∨ routed tree path es ≠ []) := by
  induction es generalizing fs with
  | nil =>
    obtain rfl : fs = fs' := Except.ok.inj h
    exact ⟨rfl, by simp [routed]⟩
  | cons e es ih =>
    obtain ⟨gs, hstep, h⟩ := Refusal.foldlM_cons_eq_ok.mp h
    obtain ⟨hfold, hsome⟩ := ih h
    rw [step_eq] at hstep
    unfold routed at hfold hsome ⊢
    rw [List.filterMap_cons]
    cases hp : place? tree e.1 with
    | none =>
      rw [hp] at hstep
      obtain rfl : fs = gs := Except.ok.inj hstep
      have hnone : placedAt? tree path e = none := by simp [placedAt?, hp]
      rw [hnone]
      exact ⟨hfold, hsome⟩
    | some p =>
      obtain ⟨path', key⟩ := p
      rw [hp] at hstep
      obtain ⟨g, hg, hgs⟩ := at?_modify hstep
      by_cases hpath : path' = path
      · subst hpath
        have hplaced : placedAt? tree path' e = some (key, e.2) := placedAt?_eq_some.mpr ⟨hp, rfl⟩
        rw [hgs, if_pos rfl] at hfold hsome
        rw [hplaced]
        exact ⟨Refusal.foldlM_cons_eq_ok.mpr ⟨g, hg, hfold⟩, by simpa using hsome⟩
      · have hnone : placedAt? tree path e = none := by simp [placedAt?, hp, hpath]
        rw [hgs, if_neg (Ne.symm hpath)] at hfold hsome
        rw [hnone]
        exact ⟨hfold, hsome⟩

/-- **Parameters make filters if and only if every filter key says something**, wherever it leads. -/
theorem exists_ofParams_iff (params : QueryParams) (tree : AliasTree) :
    (∃ fs, ofParams params tree = .ok fs) ↔ ∀ e ∈ params.entries, ∀ path key,
      place? tree e.1 = some (path, key) → ∃ c, Clause.read key e.2 = .ok c := by
  refine Refusal.exists_foldlM_iff _ fun fs e _ => ?_
  rw [step_eq]
  split
  · rename_i hnone
    simp [hnone]
  · rename_i path key hplace
    rw [exists_modify_iff]
    simp [hplace, Clause.applyKey_eq, Refusal.map_eq_ok]

/-- **Filters are refused for a key that says nothing readable**, wherever it leads. -/
theorem exists_of_ofParams_eq_error {params : QueryParams} {tree : AliasTree} {err : FilterError}
    (h : ofParams params tree = .error err) : ∃ e ∈ params.entries, ∃ path key,
      place? tree e.1 = some (path, key) ∧ Clause.read key e.2 = .error err := by
  obtain ⟨e, he, fs, hstep⟩ := Refusal.exists_of_foldlM_eq_error h
  rw [step_eq] at hstep
  split at hstep
  · simp at hstep
  · rename_i path key hplace
    refine ⟨e, he, path, key, hplace, ?_⟩
    unfold modify at hstep
    split at hstep
    · rw [Refusal.map_eq_error, Clause.applyKey_eq, Refusal.map_eq_error] at hstep
      exact hstep
    · rw [Refusal.map_eq_error, Clause.applyKey_eq, Refusal.map_eq_error] at hstep
      exact hstep

/-! ## Meaning -/

/-- What a key says, under the name it has at its place. -/
def clauseOf (e : String × List String) : Except FilterError Clause := Clause.read e.1 e.2

/-- **A filter says what the clauses say together**: it holds if and only if they all do, and it is about
the same atoms, each as often. -/
structure Means (cs : List Clause) (f : Filter) : Prop where
  holds : ∀ ν, Filter.holds ν f = cs.all (Clause.holds ν)
  atoms : (Filter.atoms f).Perm (cs.flatMap Clause.atoms)

/-- Clauses that are added to a filter, of which at most one is an `or` group and only if the filter has
none. -/
theorem means_foldlM {kvs : List (String × List String)} {f f' : Filter}
    (hn : (Entries.keys kvs).Nodup)
    (hor : "or" ∈ Entries.keys kvs → Filter.Key.group .or ∉ f.keys)
    (h : kvs.foldlM applyEntry f = .ok f') :
    ∃ cs, kvs.mapM clauseOf = .ok cs ∧
      (∀ ν, Filter.holds ν f' = (Filter.holds ν f && cs.all (Clause.holds ν))) ∧
      (Filter.atoms f').Perm (Filter.atoms f ++ cs.flatMap Clause.atoms) := by
  induction kvs generalizing f with
  | nil =>
    obtain rfl : f = f' := Except.ok.inj h
    exact ⟨[], rfl, by simp, by simp⟩
  | cons e es ih =>
    rw [Entries.keys_cons, List.nodup_cons] at hn
    obtain ⟨he, hn⟩ := hn
    obtain ⟨g, hg, h⟩ := Refusal.foldlM_cons_eq_ok.mp h
    rw [applyEntry, Clause.applyKey_eq] at hg
    obtain ⟨c, hc, rfl⟩ := Refusal.map_eq_ok.mp hg
    have hkey : c.isDisjunction → e.1 = "or" := Clause.eq_or_of_read hc
    have hfirst : c.isDisjunction → Filter.Key.group .or ∉ f.keys :=
      fun hd => hor (by simp [hkey hd])
    have hrest : "or" ∈ Entries.keys es → Filter.Key.group .or ∉ (c.addTo f).keys := by
      intro hmem hin
      rcases Clause.mem_keys_addTo hin with hf | hd
      · exact hor (by simp [hmem]) hf
      · exact he (hkey hd ▸ hmem)
    obtain ⟨cs, hcs, hholds, hatoms⟩ := ih hn hrest h
    refine ⟨c :: cs, Refusal.mapM_cons_eq_ok.mpr ⟨c, cs, hc, hcs, rfl⟩, fun ν => ?_, ?_⟩
    · rw [hholds, Clause.holds_addTo ν hfirst, List.all_cons, Bool.and_assoc]
    · refine hatoms.trans ?_
      rw [List.flatMap_cons, ← List.append_assoc]
      exact (Clause.atoms_addTo f c).append_right _

theorem means_entries {tree : AliasTree} {params : QueryParams} {fs : Filters}
    (h : ofParams params tree = .ok fs) (path : List String) :
    (∃ cs, (routed tree path params.entries).mapM clauseOf = .ok cs ∧
      Means cs ((at? path fs).getD [])) ∧
    ((at? path fs).isSome ↔ (at? path ⟨[], []⟩).isSome ∨ routed tree path params.entries ≠ []) := by
  obtain ⟨hfold, hsome⟩ := at?_foldlM tree path _ h
  have hempty : (at? path ⟨[], []⟩).getD [] = [] := by
    by_cases hp : path = [] <;> simp [at?, hp]
  rw [hempty] at hfold
  obtain ⟨cs, hcs, hholds, hatoms⟩ :=
    means_foldlM (nodup_routed tree path params.nodup_keys) (by simp [Filter.keys]) hfold
  exact ⟨⟨cs, hcs, fun ν => by simp [hholds], by simpa [Filter.atoms] using hatoms⟩, hsome⟩

/-- **The filter at a place holds if what each key says there does.** -/
theorem holds_at?_iff {tree : AliasTree} {params : QueryParams} {fs : Filters}
    (h : ofParams params tree = .ok fs) (path : List String) (ν : Valuation) :
    Filter.holds ν ((at? path fs).getD []) = true ↔ ∀ e ∈ params.entries, ∀ key c,
      place? tree e.1 = some (path, key) → Clause.read key e.2 = .ok c → c.holds ν = true := by
  obtain ⟨⟨cs, hcs, hmeans⟩, -⟩ := means_entries h path
  rw [hmeans.holds, List.all_eq_true]
  constructor
  · intro hall e he key c hplace hread
    have hmem : (key, e.2) ∈ routed tree path params.entries :=
      List.mem_filterMap.mpr ⟨e, he, placedAt?_eq_some.mpr ⟨hplace, rfl⟩⟩
    obtain ⟨c', hc', hread'⟩ := Refusal.exists_of_mapM hcs hmem
    obtain rfl : c = c' := Except.ok.inj (hread.symm.trans hread')
    exact hall c hc'
  · intro hall c hc
    obtain ⟨e', he', hread⟩ := Refusal.mem_of_mapM hcs hc
    obtain ⟨e, he, hplaced⟩ := List.mem_filterMap.mp he'
    obtain ⟨hplace, hvalues⟩ := placedAt?_eq_some.mp hplaced
    rw [clauseOf, hvalues] at hread
    exact hall e he e'.1 c hplace hread

/-- **What a key says is a conjunct** of the filter at its place. -/
theorem exists_clause_of_place? {tree : AliasTree} {params : QueryParams} {fs : Filters}
    (h : ofParams params tree = .ok fs) {e : String × List String} (he : e ∈ params.entries)
    {path : List String} {key : String} (hplace : place? tree e.1 = some (path, key)) :
    ∃ c, Clause.read key e.2 = .ok c ∧
      ∀ ν, Filter.holds ν ((at? path fs).getD []) = true → c.holds ν = true := by
  obtain ⟨c, hc⟩ := (exists_ofParams_iff params tree).mp ⟨fs, h⟩ e he path key hplace
  exact ⟨c, hc, fun ν hν => (holds_at?_iff h path ν).mp hν e he key c hplace hc⟩

theorem means_at? {tree : AliasTree} {pairs : List (String × String)} {fs : Filters}
    (h : ofParams (.ofPairs pairs) tree = .ok fs) (path : List String) :
    (∃ cs, (routed tree path (QueryParams.collected pairs)).mapM clauseOf = .ok cs ∧
      Means cs ((at? path fs).getD [])) ∧
    ((at? path fs).isSome ↔ (at? path ⟨[], []⟩).isSome ∨
      ∃ e ∈ pairs, ∃ key, place? tree e.1 = some (path, key)) := by
  obtain ⟨hmeans, hsome⟩ := means_entries h path
  rw [QueryParams.entries_ofPairs] at hmeans hsome
  refine ⟨hmeans, ?_⟩
  rw [hsome, ne_eq, routed_eq_nil_iff, not_not]

/-- **The filters of a request mean what their keys say.** At every place, all the clauses of the keys
that lead there and no others; an embed has a filter if and only if a key leads to it. -/
theorem means_ofPairs (pairs : List (String × String)) (tree : AliasTree) {fs : Filters}
    (h : ofParams (.ofPairs pairs) tree = .ok fs) :
    (∃ cs, (routed tree [] (QueryParams.collected pairs)).mapM clauseOf = .ok cs ∧
      Means cs fs.top) ∧
    ∀ path, path ≠ [] →
      ((Entries.get? path fs.embedded).isSome ↔
        ∃ e ∈ pairs, ∃ key, place? tree e.1 = some (path, key)) ∧
      ∀ f, Entries.get? path fs.embedded = some f →
        ∃ cs, (routed tree path (QueryParams.collected pairs)).mapM clauseOf = .ok cs ∧
          Means cs f := by
  refine ⟨by simpa [at?] using (means_at? h []).1, fun path hpath => ?_⟩
  obtain ⟨hmeans, hsome⟩ := means_at? h path
  simp only [at?, if_neg hpath] at hmeans hsome
  refine ⟨by simpa using hsome, fun f hf => ?_⟩
  rw [hf] at hmeans
  exact hmeans

/-- A repeated operator, a second negation and an embed: conditions that stand where their keys do not
put them. -/
theorem means_ofPairs_spilled :
    let pairs := [("id", "neq.a"), ("id", "neq.b"), ("t.or", "(x.eq.c)"), ("not.or", "(u.eq.d)"),
      ("not.and", "(v.eq.e)")]
    let tree : AliasTree := .node [("t", .empty)]
    ∃ fs, ofParams (.ofPairs pairs) tree = .ok fs ∧
      (∃ cs, (routed tree [] (QueryParams.collected pairs)).mapM clauseOf = .ok cs ∧
        Means cs fs.top) ∧
      ∃ f, Entries.get? ["t"] fs.embedded = some f ∧
        ∃ cs, (routed tree ["t"] (QueryParams.collected pairs)).mapM clauseOf = .ok cs ∧
          Means cs f := by
  intro pairs tree
  have h : ofParams (.ofPairs pairs) tree = .ok
      ⟨[.column "id" [(.comparison .neq, .value (.str "a"))],
        .group .and [[.column "id" [(.comparison .neq, .value (.str "b"))]],
          [.negation [.group .and [[.column "v" [(.comparison .eq, .value (.str "e"))]]]]]],
        .negation [.group .or [[.column "u" [(.comparison .eq, .value (.str "d"))]]]]],
        [(["t"], [.group .or [[.column "x" [(.comparison .eq, .value (.str "c"))]]]])]⟩ := by
    cbv
  have hmeans := means_ofPairs pairs tree h
  exact ⟨_, h, hmeans.1, _, rfl, (hmeans.2 ["t"] (by simp)).2 _ rfl⟩

end ResourceQuery.Filters
