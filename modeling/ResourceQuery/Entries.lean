/-! # Entries in order of arrival

A list of pairs read as a finite map that remembers the order in which its keys first came. Query
parameters, operator maps, join tables and side tables are all of this form.

* `insert k v`: a key that is present keeps its place and takes the new value; a new key goes last.
* `update k f`: the same for a value made from the old one, which is absent for a new key.
* `get?_update`, `keys_update`: what an update does to the two views `get?` and `keys`.
* `nodup_keys_update`: keys that were distinct stay distinct. -/

namespace ResourceQuery.Entries

variable {α β : Type _}

/-- The keys, in order. -/
def keys (es : List (α × β)) : List α := es.map Prod.fst

@[simp] theorem keys_nil : keys ([] : List (α × β)) = [] := rfl

@[simp] theorem keys_cons (e : α × β) (es : List (α × β)) : keys (e :: es) = e.1 :: keys es := rfl

variable [DecidableEq α]

/-- The value at `k`. -/
def get? (k : α) : List (α × β) → Option β
  | [] => none
  | e :: es => if e.1 = k then some e.2 else get? k es

/-- Whether `k` is a key. -/
def contains (k : α) (es : List (α × β)) : Bool := (get? k es).isSome

/-- **Change in place.** The value at `k` becomes `f` of the old value; a new key goes last. -/
def update (k : α) (f : Option β → β) : List (α × β) → List (α × β)
  | [] => [(k, f none)]
  | e :: es => if e.1 = k then (e.1, f (some e.2)) :: es else e :: update k f es

/-- **Write.** A key that is present keeps its place and takes the value; a new key goes last. -/
def insert (k : α) (v : β) (es : List (α × β)) : List (α × β) := update k (fun _ => v) es

/-- The entries of `fs` written over `es`, one after the other. -/
def extend (es fs : List (α × β)) : List (α × β) :=
  fs.foldl (fun acc f => insert f.1 f.2 acc) es

/-- Entries collected from a list in which a key may come again: first place, last value. -/
def ofList (fs : List (α × β)) : List (α × β) := extend [] fs

/-- The same keys with the same values, whatever their order. -/
def sameMap [DecidableEq β] (es fs : List (α × β)) : Bool :=
  es.length == fs.length && es.all fun e => get? e.1 fs = some e.2

/-! ## Views -/

@[simp] theorem get?_nil (k : α) : get? k ([] : List (α × β)) = none := rfl

theorem get?_cons (k : α) (e : α × β) (es : List (α × β)) :
    get? k (e :: es) = if e.1 = k then some e.2 else get? k es := rfl

theorem get?_eq_none_iff {k : α} {es : List (α × β)} : get? k es = none ↔ k ∉ keys es := by
  induction es with
  | nil => simp
  | cons e es ih =>
    by_cases h : e.1 = k
    · simp [get?_cons, h]
    · simp [get?_cons, h, ih, Ne.symm h]

theorem mem_of_get? {k : α} {v : β} {es : List (α × β)} (h : get? k es = some v) :
    (k, v) ∈ es := by
  induction es with
  | nil => simp at h
  | cons e es ih =>
    by_cases hk : e.1 = k
    · subst hk
      simp only [get?_cons, if_true, Option.some.injEq] at h
      subst h
      simp
    · simp only [get?_cons, hk, if_false] at h
      exact List.mem_cons_of_mem _ (ih h)

/-! ## Updates -/

theorem get?_update (k k' : α) (f : Option β → β) (es : List (α × β)) :
    get? k' (update k f es) = if k = k' then some (f (get? k es)) else get? k' es := by
  induction es with
  | nil => by_cases h : k = k' <;> simp [update, get?_cons, h]
  | cons e es ih =>
    by_cases he : e.1 = k
    · subst he
      by_cases h : e.1 = k' <;> simp [update, get?_cons, h]
    · by_cases h : e.1 = k'
      · have hk : k ≠ k' := fun hk => he (h.trans hk.symm)
        rw [update, if_neg he, get?_cons, if_pos h, if_neg hk, get?_cons, if_pos h]
      · simp [update, he, get?_cons, h, ih]

theorem keys_update (k : α) (f : Option β → β) (es : List (α × β)) :
    keys (update k f es) = if k ∈ keys es then keys es else keys es ++ [k] := by
  induction es with
  | nil => simp [update]
  | cons e es ih =>
    by_cases he : e.1 = k
    · simp [update, he]
    · have he' : k ≠ e.1 := Ne.symm he
      by_cases hk : k ∈ keys es <;> simp [update, he, he', ih, hk]

theorem mem_keys_update {k k' : α} {f : Option β → β} {es : List (α × β)} :
    k' ∈ keys (update k f es) ↔ k' = k ∨ k' ∈ keys es := by
  rw [keys_update]
  by_cases h : k ∈ keys es
  · simp only [h, if_true]
    constructor
    · exact Or.inr
    · rintro (rfl | h')
      · exact h
      · exact h'
  · simp [h, or_comm]

theorem nodup_keys_update {k : α} {f : Option β → β} {es : List (α × β)} (h : (keys es).Nodup) :
    (keys (update k f es)).Nodup := by
  rw [keys_update]
  by_cases hk : k ∈ keys es
  · simpa [hk] using h
  · simp only [hk, if_false]
    rw [List.nodup_append]
    refine ⟨h, by simp, ?_⟩
    intro a ha b hb
    simp only [List.mem_singleton] at hb
    subst hb
    exact fun hab => hk (hab ▸ ha)

@[simp] theorem get?_insert (k k' : α) (v : β) (es : List (α × β)) :
    get? k' (insert k v es) = if k = k' then some v else get? k' es := get?_update k k' _ es

theorem keys_insert (k : α) (v : β) (es : List (α × β)) :
    keys (insert k v es) = if k ∈ keys es then keys es else keys es ++ [k] := keys_update k _ es

theorem nodup_keys_insert {k : α} {v : β} {es : List (α × β)} (h : (keys es).Nodup) :
    (keys (insert k v es)).Nodup := nodup_keys_update h

theorem update_append {k : α} {es : List (α × β)} (h : k ∉ keys es) (f : Option β → β)
    (fs : List (α × β)) : update k f (es ++ fs) = es ++ update k f fs := by
  induction es with
  | nil => rfl
  | cons e es ih =>
    rw [keys_cons, List.mem_cons, not_or] at h
    rw [List.cons_append, update, if_neg (Ne.symm h.1), ih h.2, List.cons_append]

theorem update_of_not_mem {k : α} {es : List (α × β)} (h : k ∉ keys es) (f : Option β → β) :
    update k f es = es ++ [(k, f none)] := by
  have happend := update_append h f []
  rwa [List.append_nil] at happend

theorem insert_of_not_mem {k : α} {es : List (α × β)} (h : k ∉ keys es) (v : β) :
    insert k v es = es ++ [(k, v)] := update_of_not_mem h _

theorem extend_eq_append {es fs : List (α × β)} (hn : (keys fs).Nodup)
    (hnew : ∀ k ∈ keys fs, k ∉ keys es) : extend es fs = es ++ fs := by
  induction fs generalizing es with
  | nil => simp [extend]
  | cons f fs ih =>
    rw [keys_cons, List.nodup_cons] at hn
    have hinsert : insert f.1 f.2 es = es ++ [f] := insert_of_not_mem (hnew f.1 (by simp)) f.2
    have hrest : ∀ k ∈ keys fs, k ∉ keys (es ++ [f]) := by
      intro k hk hmem
      rw [keys, List.map_append, List.mem_append] at hmem
      rcases hmem with hmem | hmem
      · exact hnew k (by simp [hk]) hmem
      · obtain rfl : k = f.1 := by simpa using hmem
        exact hn.1 hk
    have hstep : extend es (f :: fs) = extend (insert f.1 f.2 es) fs := rfl
    rw [hstep, hinsert, ih hn.2 hrest, List.append_assoc, List.singleton_append]

theorem ofList_of_nodup {fs : List (α × β)} (h : (keys fs).Nodup) : ofList fs = fs :=
  extend_eq_append h (by simp)

theorem nodup_keys_extend {es fs : List (α × β)} (h : (keys es).Nodup) :
    (keys (extend es fs)).Nodup := by
  induction fs generalizing es with
  | nil => exact h
  | cons f fs ih => exact ih (nodup_keys_insert h)

theorem nodup_keys_ofList (fs : List (α × β)) : (keys (ofList fs)).Nodup :=
  nodup_keys_extend (by simp)

end ResourceQuery.Entries
