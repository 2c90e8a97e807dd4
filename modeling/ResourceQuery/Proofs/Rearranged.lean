import Mathlib.Data.List.Perm.Basic
import ResourceQuery.Proofs.Collected

/-! # Pairs in another order

Pairs of a query string may come in another order, as long as those of a key stay in theirs. Then the same
entries are collected, in another order (`perm_entries_of_rearranged`), and so it is after some of them are
left out by key and value (`perm_entries_filter`). What is left then are the values that are kept
(`get?_filter`). -/

namespace ResourceQuery

namespace QueryParams

/-- **The same pairs in another order**, where those of a key keep theirs. -/
def Rearranged (ps qs : List (String × String)) : Prop :=
  ps.Perm qs ∧ ∀ key, valuesOf key ps = valuesOf key qs

theorem rearranged_iff {ps qs : List (String × String)} :
    Rearranged ps qs ↔ ps.Perm qs ∧ ∀ key ∈ ps.map Prod.fst, valuesOf key ps = valuesOf key qs := by
  refine and_congr_right fun hperm => ⟨fun h key _ => h key, fun h key => ?_⟩
  by_cases hkey : key ∈ ps.map Prod.fst
  · exact h key hkey
  · have hkey' : key ∉ qs.map Prod.fst := fun hmem => hkey ((hperm.map Prod.fst).mem_iff.mpr hmem)
    rw [valuesOf_eq_nil_iff.mpr hkey, valuesOf_eq_nil_iff.mpr hkey']

instance (ps qs : List (String × String)) : Decidable (Rearranged ps qs) :=
  decidable_of_iff _ rearranged_iff.symm

theorem valuesOf_filter (keep : String → String → Bool) (key : String) (ps : List (String × String)) :
    valuesOf key (ps.filter fun e => keep e.1 e.2) = (valuesOf key ps).filter (keep key) := by
  induction ps with
  | nil => rfl
  | cons e ps ih =>
    unfold valuesOf at ih ⊢
    by_cases hkey : e.1 = key
    · cases hkeep : keep e.1 e.2 <;> simp_all
    · cases hkeep : keep e.1 e.2 <;> simp_all

theorem Rearranged.filter {ps qs : List (String × String)} (h : Rearranged ps qs)
    (keep : String → String → Bool) :
    Rearranged (ps.filter fun e => keep e.1 e.2) (qs.filter fun e => keep e.1 e.2) :=
  ⟨h.1.filter _, fun key => by rw [valuesOf_filter, valuesOf_filter, h.2 key]⟩

theorem Rearranged.collected {ps qs : List (String × String)} (h : Rearranged ps qs) :
    (collected ps).Perm (collected qs) := by
  have hkeys : ((ps.map Prod.fst).eraseDups).Perm ((qs.map Prod.fst).eraseDups) := by
    refine (List.perm_ext_iff_of_nodup (Entries.nodup_eraseDups _) (Entries.nodup_eraseDups _)).mpr ?_
    intro key
    rw [List.mem_eraseDups, List.mem_eraseDups]
    exact (h.1.map Prod.fst).mem_iff
  unfold QueryParams.collected
  simp only [h.2]
  exact hkeys.map _

/-- **The same entries are collected**, in another order. -/
theorem perm_entries_of_rearranged {ps qs : List (String × String)} (h : Rearranged ps qs) :
    (ofPairs ps).entries.Perm (ofPairs qs).entries := by
  rw [entries_ofPairs, entries_ofPairs]
  exact h.collected

theorem valuesOf_map_pair (key k : String) (values : List String) :
    valuesOf key (values.map fun v => (k, v)) = if k = key then values else [] := by
  by_cases hkey : k = key <;> simp [valuesOf, List.filter_map, Function.comp_def, hkey]

theorem valuesOf_flatMap {es : List (String × List String)} (hn : (Entries.keys es).Nodup) (key : String) :
    valuesOf key (es.flatMap fun e => e.2.map fun v => (e.1, v)) = (Entries.get? key es).getD [] := by
  induction es with
  | nil => rfl
  | cons e es ih =>
    rw [Entries.keys_cons, List.nodup_cons] at hn
    rw [List.flatMap_cons, valuesOf_append, valuesOf_map_pair, ih hn.2, Entries.get?_cons]
    by_cases hkey : e.1 = key
    · have hnone : Entries.get? key es = none := Entries.get?_eq_none_iff.mpr (hkey ▸ hn.1)
      simp [hkey, hnone]
    · simp [hkey]

variable {p q : QueryParams}

theorem rearranged_pairs (h : p.entries.Perm q.entries) : Rearranged p.pairs q.pairs := by
  refine ⟨h.flatMap_right _, fun key => ?_⟩
  rw [pairs, pairs, valuesOf_flatMap p.nodup_keys, valuesOf_flatMap q.nodup_keys,
    Entries.get?_perm p.nodup_keys h]

theorem perm_entries_filter (h : p.entries.Perm q.entries) (keep : String → String → Bool) :
    (p.filter keep).entries.Perm (q.filter keep).entries :=
  perm_entries_of_rearranged ((rearranged_pairs h).filter keep)

/-! ## What is left of some parameters -/

theorem mem_pairs_ofPairs {ps : List (String × String)} {e : String × String} :
    e ∈ (ofPairs ps).pairs ↔ e ∈ ps := by
  obtain ⟨key, value⟩ := e
  rw [pairs, entries_ofPairs]
  simp only [List.mem_flatMap, List.mem_map, mem_collected, Prod.mk.injEq]
  constructor
  · rintro ⟨⟨k, values⟩, ⟨hvalues, -⟩, v, hv, rfl, rfl⟩
    rw [hvalues] at hv
    exact mem_valuesOf.mp hv
  · intro h
    have hvalue := mem_valuesOf.mpr h
    exact ⟨(key, valuesOf key ps), ⟨rfl, List.ne_nil_of_mem hvalue⟩, value, hvalue, rfl, rfl⟩

theorem mem_pairs_filter {keep : String → String → Bool} {e : String × String} :
    e ∈ (p.filter keep).pairs ↔ e ∈ p.pairs ∧ keep e.1 e.2 = true := by
  rw [filter, mem_pairs_ofPairs, List.mem_filter]

theorem get?_ofPairs (key : String) (ps : List (String × String)) :
    (ofPairs ps).get? key = if valuesOf key ps = [] then none else some (valuesOf key ps) := by
  rw [get?, entries_ofPairs, QueryParams.collected, Entries.get?_map_pair]
  simp only [List.mem_eraseDups, valuesOf_eq_nil_iff, ite_not]

theorem first?_added_of_ne {before after : List (String × String)} {key k value : String} (hk : key ≠ k) :
    (ofPairs (before ++ (key, value) :: after)).first? k = (ofPairs (before ++ after)).first? k := by
  rw [first?, first?, get?_ofPairs, get?_ofPairs, valuesOf_added_of_ne hk]

theorem valuesOf_pairs (key : String) (p : QueryParams) : valuesOf key p.pairs = (p.get? key).getD [] := by
  rw [pairs, valuesOf_flatMap p.nodup_keys, get?]

theorem get?_filter (keep : String → String → Bool) (key : String) (p : QueryParams) :
    (p.filter keep).get? key = match ((p.get? key).getD []).filter (keep key) with
      | [] => none
      | v :: vs => some (v :: vs) := by
  rw [filter, get?_ofPairs, valuesOf_filter, valuesOf_pairs]
  cases ((p.get? key).getD []).filter (keep key) <;> simp

theorem mem_pairs_iff {p : QueryParams} {e : String × String} :
    e ∈ p.pairs ↔ ∃ values, (e.1, values) ∈ p.entries ∧ e.2 ∈ values := by
  obtain ⟨key, value⟩ := e
  simp only [pairs, List.mem_flatMap, List.mem_map, Prod.mk.injEq]
  constructor
  · rintro ⟨d, hd, v, hv, rfl, rfl⟩
    exact ⟨d.2, hd, hv⟩
  · rintro ⟨values, he, hvalue⟩
    exact ⟨_, he, value, hvalue, rfl, rfl⟩

theorem first?_eq_some {p : QueryParams} {key value : String} :
    p.first? key = some value ↔ ∃ values, p.get? key = some (value :: values) := by
  rw [first?, Option.bind_eq_some_iff]
  constructor
  · rintro ⟨values, hvalues, h⟩
    obtain ⟨rest, rfl⟩ := List.head?_eq_some_iff.mp h
    exact ⟨rest, hvalues⟩
  · rintro ⟨values, h⟩
    exact ⟨_, h, rfl⟩

theorem first?_perm (h : p.entries.Perm q.entries) (key : String) : p.first? key = q.first? key := by
  rw [first?, first?, get?, get?, Entries.get?_perm p.nodup_keys h]

end QueryParams

end ResourceQuery
