import Mathlib.Data.List.Induction
import ResourceQuery.Entries

/-! # Entries by their views

Entries with distinct keys are determined by their keys and the values at them (`ext_of_nodup`). What is
collected is among what was given (`mem_ofList`): each key where it first came (`keys_ofList`), with the
last value given under it (`get?_ofList`). -/

namespace ResourceQuery.Entries

variable {α β : Type _} [DecidableEq α]

theorem ext_of_nodup {es fs : List (α × β)} (hk : keys es = keys fs) (hn : (keys es).Nodup)
    (h : ∀ k ∈ keys es, get? k es = get? k fs) : es = fs := by
  induction es generalizing fs with
  | nil =>
    cases fs with
    | nil => rfl
    | cons f fs => simp at hk
  | cons e es ih =>
    cases fs with
    | nil => simp at hk
    | cons f fs =>
      simp only [keys_cons, List.cons.injEq] at hk
      obtain ⟨hef, hk⟩ := hk
      rw [keys_cons, List.nodup_cons] at hn
      obtain ⟨he, hn⟩ := hn
      have hv := h e.1 (by simp)
      rw [get?_cons, if_pos rfl, get?_cons, if_pos hef.symm, Option.some.injEq] at hv
      have htail : es = fs := by
        refine ih hk hn fun k hkm => ?_
        have hne : e.1 ≠ k := fun hek => he (hek ▸ hkm)
        have := h k (by simp [hkm])
        rwa [get?_cons, if_neg hne, get?_cons, if_neg (by rwa [← hef])] at this
      rw [htail, Prod.ext hef hv]

omit [DecidableEq α] in
theorem keys_map_pair (f : α → β) (ks : List α) : keys (ks.map fun k => (k, f k)) = ks := by
  simp [keys, Function.comp_def]

theorem get?_map_pair (f : α → β) (k : α) (ks : List α) :
    get? k (ks.map fun k => (k, f k)) = if k ∈ ks then some (f k) else none := by
  induction ks with
  | nil => simp
  | cons l ks ih =>
    rw [List.map_cons, get?_cons]
    by_cases hl : l = k
    · simp [hl]
    · simp [hl, Ne.symm hl, ih]

theorem get?_of_mem {k : α} {v : β} {es : List (α × β)} (hn : (keys es).Nodup) (h : (k, v) ∈ es) :
    get? k es = some v := by
  induction es with
  | nil => simp at h
  | cons e es ih =>
    rw [keys_cons, List.nodup_cons] at hn
    rw [get?_cons]
    rcases List.mem_cons.mp h with rfl | h
    · exact if_pos rfl
    · have hne : e.1 ≠ k := fun hek => hn.1 (List.mem_map.mpr ⟨(k, v), h, hek.symm⟩)
      rw [if_neg hne, ih hn.2 h]

theorem get?_perm {es fs : List (α × β)} (hn : (keys es).Nodup) (h : es.Perm fs) (k : α) :
    get? k es = get? k fs := by
  cases hget : get? k es with
  | none =>
    have hk : k ∉ keys es := get?_eq_none_iff.mp hget
    exact (get?_eq_none_iff.mpr fun hmem => hk ((h.map Prod.fst).mem_iff.mpr hmem)).symm
  | some v =>
    have hn' : (keys fs).Nodup := (h.map Prod.fst).nodup_iff.mp hn
    exact (get?_of_mem hn' (h.mem_iff.mp (mem_of_get? hget))).symm

theorem get?_eq_find? (k : α) (es : List (α × β)) :
    get? k es = (es.find? fun e => e.1 = k).map Prod.snd := by
  induction es with
  | nil => rfl
  | cons e es ih =>
    rw [get?_cons, List.find?_cons]
    by_cases he : e.1 = k
    · simp [he]
    · simp [he, ih]

omit [DecidableEq α] in
theorem nodup_keys_filterMap {γ δ : Type _} {f : α × β → Option (γ × δ)} {es : List (α × β)}
    (hn : (keys es).Nodup)
    (hinj : ∀ d e d' e', f d = some d' → f e = some e' → d'.1 = e'.1 → d.1 = e.1) :
    (keys (es.filterMap f)).Nodup := by
  rw [keys, List.Nodup, List.pairwise_map] at hn ⊢
  exact hn.filterMap f fun d e hne d' hd e' he heq => hne (hinj d e d' e' hd he heq)

theorem get?_filterMap {γ : Type _} {f : α × β → Option (α × γ)}
    (hf : ∀ e e', f e = some e' → e'.1 = e.1) {es : List (α × β)} (hn : (keys es).Nodup) (k : α) :
    get? k (es.filterMap f) = (get? k es).bind fun v => (f (k, v)).map Prod.snd := by
  induction es with
  | nil => rfl
  | cons e es ih =>
    rw [keys_cons, List.nodup_cons] at hn
    rw [List.filterMap_cons, get?_cons]
    by_cases hk : e.1 = k
    · have hnone : get? k (es.filterMap f) = none := by
        rw [ih hn.2, get?_eq_none_iff.mpr (hk ▸ hn.1), Option.bind_none]
      rw [if_pos hk, Option.bind_some, ← hk]
      cases he : f e with
      | none => simpa [he, hk] using hnone
      | some e' => simp [get?_cons, hf e e' he]
    · rw [if_neg hk, ← ih hn.2]
      cases he : f e with
      | none => rfl
      | some e' => simp [get?_cons, hf e e' he, hk]

/-- Entries of which nothing is made can be left out. -/
theorem filterMap_filter_ne {γ : Type _} {f : α × β → Option γ} {k : α} (hf : ∀ v, f (k, v) = none)
    (es : List (α × β)) : (es.filter fun e => e.1 ≠ k).filterMap f = es.filterMap f := by
  induction es with
  | nil => rfl
  | cons e es ih =>
    rw [List.filter_cons, List.filterMap_cons, ← ih]
    by_cases hk : e.1 = k
    · obtain ⟨k', v⟩ := e
      obtain rfl : k' = k := hk
      simp [hf]
    · simp [hk, List.filterMap_cons]

theorem contains_iff {k : α} {es : List (α × β)} : contains k es = true ↔ k ∈ keys es := by
  have hnone : get? k es = none ↔ k ∉ keys es := get?_eq_none_iff
  unfold contains
  cases hget : get? k es with
  | none => simpa [hget] using hnone
  | some v =>
    rw [hget] at hnone
    simpa using hnone

theorem update_eq_insert (k : α) (f : Option β → β) (es : List (α × β)) :
    update k f es = insert k (f (get? k es)) es := by
  induction es with
  | nil => rfl
  | cons e es ih =>
    unfold insert at ih ⊢
    by_cases he : e.1 = k
    · simp [update, get?_cons, he]
    · simp [update, get?_cons, he, ih]

theorem update_of_mem {k : α} {es : List (α × β)} (h : k ∈ keys es) (f : Option β → β) :
    ∃ fs v gs, es = fs ++ (k, v) :: gs ∧ update k f es = fs ++ (k, f (some v)) :: gs := by
  induction es with
  | nil => simp at h
  | cons e es ih =>
    by_cases he : e.1 = k
    · subst he
      exact ⟨[], e.2, es, rfl, by simp [update]⟩
    · have hmem : k ∈ keys es := by simpa [Ne.symm he] using h
      obtain ⟨fs, v, gs, hes, hupdate⟩ := ih hmem
      refine ⟨e :: fs, v, gs, by rw [hes, List.cons_append], ?_⟩
      rw [update, if_neg he, hupdate, List.cons_append]

/-! ## What is collected -/

theorem mem_insert {k : α} {v : β} {e : α × β} {es : List (α × β)} (h : e ∈ insert k v es) :
    e = (k, v) ∨ e ∈ es := by
  induction es with
  | nil => simpa [insert, update] using h
  | cons f es ih =>
    unfold insert update at h
    split at h
    · rename_i hf
      rcases List.mem_cons.mp h with rfl | h
      · exact Or.inl (by rw [hf])
      · exact Or.inr (List.mem_cons_of_mem f h)
    · rcases List.mem_cons.mp h with rfl | h
      · exact Or.inr List.mem_cons_self
      · exact (ih h).imp_right (List.mem_cons_of_mem f)

theorem mem_extend {e : α × β} {es fs : List (α × β)} (h : e ∈ extend es fs) : e ∈ es ∨ e ∈ fs := by
  induction fs generalizing es with
  | nil => exact Or.inl h
  | cons f fs ih =>
    have hrest : e ∈ extend (insert f.1 f.2 es) fs := h
    rcases ih hrest with h | h
    · rcases mem_insert h with rfl | h
      · exact Or.inr List.mem_cons_self
      · exact Or.inl h
    · exact Or.inr (List.mem_cons_of_mem f h)

theorem mem_ofList {e : α × β} {fs : List (α × β)} (h : e ∈ ofList fs) : e ∈ fs :=
  (mem_extend h).resolve_left (by simp)

/-! ## First place, last value -/

theorem eraseDups_append_singleton (ks : List α) (k : α) :
    (ks ++ [k]).eraseDups = if k ∈ ks then ks.eraseDups else ks.eraseDups ++ [k] := by
  rw [List.eraseDups_append]
  by_cases hk : k ∈ ks
  · simp [hk, List.removeAll]
  · simp [hk, List.removeAll, List.eraseDups_cons]

theorem nodup_eraseDups (ks : List α) : ks.eraseDups.Nodup := by
  induction ks using List.reverseRecOn with
  | nil => simp
  | append_singleton ks k ih =>
    rw [eraseDups_append_singleton]
    split
    · exact ih
    · rename_i hk
      refine List.nodup_append.mpr ⟨ih, by simp, ?_⟩
      rintro a ha _ hb rfl
      obtain rfl := List.mem_singleton.mp hb
      exact hk (List.mem_eraseDups.mp ha)

theorem eraseDups_filter (p : α → Bool) (ks : List α) : (ks.filter p).eraseDups = ks.eraseDups.filter p := by
  induction ks using List.reverseRecOn with
  | nil => simp
  | append_singleton ks k ih =>
    rw [List.filter_append, eraseDups_append_singleton]
    cases hk : p k with
    | true =>
      rw [List.filter_cons_of_pos hk, List.filter_nil, eraseDups_append_singleton, ih]
      by_cases hmem : k ∈ ks <;> simp [hmem, hk]
    | false =>
      rw [List.filter_cons_of_neg (by simp [hk]), List.filter_nil, List.append_nil, ih]
      by_cases hmem : k ∈ ks <;> simp [hmem, hk]

theorem extend_append_singleton (es fs : List (α × β)) (f : α × β) :
    extend es (fs ++ [f]) = insert f.1 f.2 (extend es fs) := by
  simp [extend, List.foldl_append]

/-- **A key keeps its place**; a new one is collected where it first comes. -/
theorem keys_extend (es fs : List (α × β)) :
    keys (extend es fs) = keys es ++ (keys fs).eraseDups.filter (· ∉ keys es) := by
  induction fs using List.reverseRecOn with
  | nil => simp [extend]
  | append_singleton fs f ih =>
    have hkeys : keys (fs ++ [f]) = keys fs ++ [f.1] := by simp [keys]
    rw [extend_append_singleton, keys_insert, hkeys, eraseDups_append_singleton, ih]
    by_cases hes : f.1 ∈ keys es <;> by_cases hfs : f.1 ∈ keys fs <;> simp [hes, hfs]

/-- **The last value that is written** is the one there. -/
theorem get?_extend (k : α) (es fs : List (α × β)) :
    get? k (extend es fs) = (get? k fs.reverse).or (get? k es) := by
  induction fs using List.reverseRecOn with
  | nil => rfl
  | append_singleton fs f ih =>
    rw [extend_append_singleton, get?_insert, List.reverse_append, List.reverse_singleton,
      List.singleton_append, get?_cons, ih]
    split <;> rfl

theorem keys_ofList (fs : List (α × β)) : keys (ofList fs) = (keys fs).eraseDups := by
  rw [ofList, keys_extend]
  simp

theorem get?_ofList (k : α) (fs : List (α × β)) : get? k (ofList fs) = get? k fs.reverse := by
  rw [ofList, get?_extend, get?_nil, Option.or_none]

/-- **What is collected from two lists** is the first collected, with the second written over it. -/
theorem ofList_append (es fs : List (α × β)) : ofList (es ++ fs) = extend (ofList es) (ofList fs) := by
  have hsplit : ofList (es ++ fs) = extend (ofList es) fs := List.foldl_append
  have hkeys : keys (ofList (es ++ fs)) = keys (extend (ofList es) (ofList fs)) := by
    rw [hsplit, keys_extend, keys_extend, ← keys_ofList fs, ← keys_ofList (ofList fs),
      ofList_of_nodup (nodup_keys_ofList fs)]
  refine ext_of_nodup hkeys (nodup_keys_ofList _) fun k _ => ?_
  rw [hsplit, get?_extend, get?_extend, ← get?_ofList k fs,
    get?_perm (nodup_keys_ofList fs) (List.reverse_perm _).symm]

theorem get?_map_snd {γ : Type _} (f : β → γ) (k : α) (es : List (α × β)) :
    get? k (es.map fun e => (e.1, f e.2)) = (get? k es).map f := by
  induction es with
  | nil => rfl
  | cons e es ih =>
    rw [List.map_cons, get?_cons, get?_cons]
    by_cases he : e.1 = k
    · simp [he]
    · simp [he, ih]

theorem mem_keys_ofList {k : α} {fs : List (α × β)} : k ∈ keys (ofList fs) ↔ k ∈ keys fs := by
  rw [keys_ofList, List.mem_eraseDups]

section Last

variable {γ : Type _} (key : γ → α) (val : γ → β)

theorem get?_ofList_map (k : α) (ns : List γ) :
    get? k (ofList (ns.map fun n => (key n, val n))) =
      (ns.reverse.find? fun n => key n = k).map val := by
  rw [get?_ofList, get?_eq_find?, ← List.map_reverse, List.find?_map, Option.map_map]
  rfl

/-- Only the last values count: where those agree, the same is collected. -/
theorem ofList_map_congr {val' : γ → β} {ns : List γ}
    (h : ∀ n ∈ ns, get? (key n) (ofList (ns.map fun n => (key n, val n))) = some (val n) →
      val' n = val n) :
    ofList (ns.map fun n => (key n, val' n)) = ofList (ns.map fun n => (key n, val n)) := by
  have hkeys : keys (ofList (ns.map fun n => (key n, val' n))) =
      keys (ofList (ns.map fun n => (key n, val n))) := by
    rw [keys_ofList, keys_ofList]
    simp [keys, Function.comp_def]
  refine ext_of_nodup hkeys (nodup_keys_ofList _) fun k _ => ?_
  rw [get?_ofList_map, get?_ofList_map]
  cases hfind : ns.reverse.find? fun n => key n = k with
  | none => rfl
  | some n =>
    have hk : key n = k := by simpa using List.find?_some hfind
    have hn : n ∈ ns := List.mem_reverse.mp (List.mem_of_find?_eq_some hfind)
    have hlast : get? (key n) (ofList (ns.map fun n => (key n, val n))) = some (val n) := by
      rw [get?_ofList_map, hk, hfind]
      rfl
    exact congrArg some (h n hn hlast)

end Last

end ResourceQuery.Entries
