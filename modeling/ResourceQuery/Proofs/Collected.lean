import Mathlib.Data.List.Induction
import ResourceQuery.Proofs.Entries
import ResourceQuery.QueryParams

/-! # What parameters collect

A list of pairs, pushed one after the other, becomes one entry for each key: the keys in the order in
which they first came, each with all its values in their order.

* `entries_ofPairs`: the entries of a list of pairs, without the pushes.
* `entries_filter`: parameters that are kept by their keys stay as they are, in their order. -/

namespace ResourceQuery.QueryParams

/-- The values of a key in a list of pairs. -/
def valuesOf (key : String) (pairs : List (String × String)) : List String :=
  (pairs.filter fun e => e.1 = key).map Prod.snd

/-- **Every key once**, where it first came, with all its values. -/
def collected (pairs : List (String × String)) : List (String × List String) :=
  (pairs.map Prod.fst).eraseDups.map fun key => (key, valuesOf key pairs)

theorem valuesOf_append (key : String) (ps qs : List (String × String)) :
    valuesOf key (ps ++ qs) = valuesOf key ps ++ valuesOf key qs := by
  simp [valuesOf]

theorem valuesOf_eq_nil_iff {key : String} {pairs : List (String × String)} :
    valuesOf key pairs = [] ↔ key ∉ pairs.map Prod.fst := by
  simp only [valuesOf, List.map_eq_nil_iff, List.filter_eq_nil_iff, decide_eq_true_eq,
    List.mem_map, not_exists, not_and]

theorem mem_valuesOf {key value : String} {pairs : List (String × String)} :
    value ∈ valuesOf key pairs ↔ (key, value) ∈ pairs := by
  simp [valuesOf]

/-- **What is collected under a key** are its values, if there are any. -/
theorem mem_collected {pairs : List (String × String)} {e : String × List String} :
    e ∈ collected pairs ↔ e.2 = valuesOf e.1 pairs ∧ e.2 ≠ [] := by
  obtain ⟨key, values⟩ := e
  simp only [collected, List.mem_map, List.mem_eraseDups, Prod.mk.injEq]
  constructor
  · rintro ⟨k, ⟨pair, hpair, rfl⟩, rfl, rfl⟩
    exact ⟨rfl, List.ne_nil_of_mem (mem_valuesOf.mpr hpair)⟩
  · rintro ⟨rfl, hne⟩
    obtain ⟨value, hvalue⟩ := List.exists_mem_of_ne_nil _ hne
    exact ⟨key, ⟨_, mem_valuesOf.mp hvalue, rfl⟩, rfl, rfl⟩

theorem collected_filter (keep : String → Bool) (pairs : List (String × String)) :
    (collected pairs).filter (fun e => keep e.1) = collected (pairs.filter fun e => keep e.1) := by
  have hkeys : (pairs.filter fun e => keep e.1).map Prod.fst = (pairs.map Prod.fst).filter keep := by
    rw [List.filter_map]
    rfl
  rw [collected, collected, hkeys, Entries.eraseDups_filter, List.filter_map]
  refine List.map_congr_left fun key hkey => ?_
  have hkeep : keep key = true := (List.mem_filter.mp hkey).2
  have hvalues : (pairs.filter fun e => keep e.1).filter (fun e => e.1 = key) =
      pairs.filter fun e => e.1 = key := by
    rw [List.filter_filter]
    refine List.filter_congr fun e _ => ?_
    by_cases he : e.1 = key <;> simp [he, hkeep]
  rw [valuesOf, valuesOf, hvalues]

theorem ofPairs_append_singleton (pairs : List (String × String)) (e : String × String) :
    ofPairs (pairs ++ [e]) = (ofPairs pairs).push e.1 e.2 := by
  simp [ofPairs, List.foldl_append]

/-- **The entries that a list of pairs makes.** -/
theorem entries_ofPairs (pairs : List (String × String)) :
    (ofPairs pairs).entries = collected pairs := by
  induction pairs using List.reverseRecOn with
  | nil => rfl
  | append_singleton pairs e ih =>
    obtain ⟨key, value⟩ := e
    have hkeys : Entries.keys (ofPairs (pairs ++ [(key, value)])).entries =
        Entries.keys (collected (pairs ++ [(key, value)])) := by
      rw [ofPairs_append_singleton, entries_push, Entries.keys_update, ih, collected, collected,
        Entries.keys_map_pair, Entries.keys_map_pair, List.map_append, List.map_cons, List.map_nil,
        Entries.eraseDups_append_singleton]
      simp only [List.mem_eraseDups]
    refine Entries.ext_of_nodup hkeys (ofPairs _).nodup_keys fun k hk => ?_
    rw [hkeys, collected, Entries.keys_map_pair, List.mem_eraseDups] at hk
    rw [ofPairs_append_singleton, entries_push, Entries.get?_update, ih, collected, collected,
      Entries.get?_map_pair, Entries.get?_map_pair, Entries.get?_map_pair, valuesOf_append]
    simp only [List.mem_eraseDups, hk, if_true]
    -- only the values of the pushed key change, and for a new key there were none
    by_cases hkk : key = k
    · subst hkk
      by_cases hm : key ∈ pairs.map Prod.fst
      · simp [hm, append, valuesOf]
      · rw [if_neg hm, valuesOf_eq_nil_iff.mpr hm]
        simp [append, valuesOf]
    · have hm : k ∈ pairs.map Prod.fst := by
        simpa [Ne.symm hkk] using hk
      simp [hkk, hm, valuesOf]

/-! ## One more pair -/

section Added

variable {before after : List (String × String)} {key value : String}

theorem valuesOf_added_of_ne {k : String} (hk : key ≠ k) :
    valuesOf k (before ++ (key, value) :: after) = valuesOf k (before ++ after) := by
  simp [valuesOf, hk]

theorem mem_valuesOf_added {v : String} :
    v ∈ valuesOf key (before ++ (key, value) :: after) ↔ v = value ∨ v ∈ valuesOf key (before ++ after) := by
  simp only [mem_valuesOf, List.mem_append, List.mem_cons, Prod.mk.injEq, true_and]
  exact or_left_comm

theorem mem_collected_added_of_ne {e : String × List String} (he : e.1 ≠ key) :
    e ∈ collected (before ++ (key, value) :: after) ↔ e ∈ collected (before ++ after) := by
  rw [mem_collected, mem_collected, valuesOf_added_of_ne (Ne.symm he)]

theorem collected_added_filter :
    (collected (before ++ (key, value) :: after)).filter (fun e => e.1 ≠ key) =
      (collected (before ++ after)).filter fun e => e.1 ≠ key := by
  rw [collected_filter (fun k => k ≠ key), collected_filter (fun k => k ≠ key)]
  simp

end Added

/-! ## Kept by key -/

theorem entries_push_values {p : QueryParams} {key : String} {values : List String}
    (hkey : key ∉ Entries.keys p.entries) (hvalues : values ≠ []) :
    ((values.map fun v => (key, v)).foldl (fun p e => p.push e.1 e.2) p).entries =
      p.entries ++ [(key, values)] := by
  induction values using List.reverseRecOn with
  | nil => exact absurd rfl hvalues
  | append_singleton vs v ih =>
    rw [List.map_append, List.foldl_append, List.map_singleton, List.foldl_cons, List.foldl_nil,
      entries_push]
    cases vs with
    | nil =>
      rw [List.map_nil, List.foldl_nil, Entries.update_of_not_mem hkey]
      rfl
    | cons w vs =>
      rw [ih (by simp), Entries.update_append hkey]
      simp [Entries.update, append]

theorem entries_ofPairs_flatMap {es : List (String × List String)} (hn : (Entries.keys es).Nodup)
    (hvalues : ∀ e ∈ es, e.2 ≠ []) :
    (ofPairs (es.flatMap fun e => e.2.map fun v => (e.1, v))).entries = es := by
  induction es using List.reverseRecOn with
  | nil => rfl
  | append_singleton es e ih =>
    rw [Entries.keys, List.map_append, List.nodup_append] at hn
    obtain ⟨hes, -, hnew⟩ := hn
    have ih := ih hes fun d hd => hvalues d (List.mem_append_left _ hd)
    have hkey : e.1 ∉ Entries.keys es := fun hmem => hnew e.1 hmem e.1 (by simp) rfl
    rw [List.flatMap_append, List.flatMap_singleton, ofPairs, List.foldl_append]
    rw [← ih] at hkey
    have hpush := entries_push_values hkey (hvalues e (by simp))
    rw [ih] at hpush
    exact hpush

/-- **Parameters kept by their keys** are those entries, in their order. -/
theorem entries_filter (keep : String → Bool) (p : QueryParams) :
    (p.filter fun key _ => keep key).entries = p.entries.filter fun e => keep e.1 := by
  have hpairs : ∀ es : List (String × List String),
      (es.flatMap fun e => e.2.map fun v => (e.1, v)).filter (fun e => keep e.1) =
        (es.filter fun e => keep e.1).flatMap fun e => e.2.map fun v => (e.1, v) := by
    intro es
    induction es with
    | nil => rfl
    | cons e es ih =>
      have hvalues : (e.2.map fun v => (e.1, v)).filter (fun e => keep e.1) =
          if keep e.1 then e.2.map fun v => (e.1, v) else [] := by
        cases hkeep : keep e.1 <;> simp [hkeep]
      rw [List.flatMap_cons, List.filter_append, ih, hvalues, List.filter_cons]
      cases keep e.1 <;> rfl
  have hn : (Entries.keys (p.entries.filter fun e => keep e.1)).Nodup :=
    p.nodup_keys.sublist (List.filter_sublist.map Prod.fst)
  rw [filter, pairs, hpairs]
  exact entries_ofPairs_flatMap hn fun e he => p.values_ne_nil e (List.mem_filter.mp he).1

end ResourceQuery.QueryParams
