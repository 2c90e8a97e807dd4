import ResourceQuery.Json.Parser
import ResourceQuery.ListLiteral
import ResourceQuery.Proofs.Entries

/-! # Values that name no key twice

A tree names no key twice if its outermost object does not and its parts do not (`distinctKeys_obj_iff`,
`distinctKeys_arr_iff`); these are the trees of which an ordinary reader loses nothing
(`collapse_eq_self_iff`). All that is read is of this kind: what a JSON text says, where a repeated key
takes its last value (`distinctKeys_of_ofChars?`), scalars, and lists of them. -/

namespace ResourceQuery.Json

/-! ## Parts -/

theorem distinctItems_iff {vs : List Json} : DistinctItems vs ↔ ∀ v ∈ vs, v.DistinctKeys := by
  induction vs with
  | nil => simp [DistinctItems]
  | cons v vs ih => simp [DistinctItems, ih]

theorem distinctFields_iff {fs : List (String × Json)} :
    DistinctFields fs ↔ ∀ f ∈ fs, f.2.DistinctKeys := by
  induction fs with
  | nil => simp [DistinctFields]
  | cons f fs ih =>
    obtain ⟨k, v⟩ := f
    rw [DistinctFields, ih, List.forall_mem_cons]

theorem distinctKeys_arr_iff {vs : List Json} : (arr vs).DistinctKeys ↔ ∀ v ∈ vs, v.DistinctKeys := by
  rw [DistinctKeys, distinctItems_iff]

theorem distinctKeys_obj_iff {fs : List (String × Json)} :
    (obj fs).DistinctKeys ↔ (Entries.keys fs).Nodup ∧ ∀ f ∈ fs, f.2.DistinctKeys := by
  rw [DistinctKeys, distinctFields_iff]

@[simp] theorem distinctKeys_str (s : String) : (str s).DistinctKeys := by simp [DistinctKeys]

@[simp] theorem distinctKeys_bool (b : Bool) : (bool b).DistinctKeys := by simp [DistinctKeys]

@[simp] theorem distinctKeys_int (n : Int) : (int n).DistinctKeys := by simp [DistinctKeys]

@[simp] theorem distinctKeys_double (x : Binary64) : (double x).DistinctKeys := by simp [DistinctKeys]

@[simp] theorem distinctKeys_null : null.DistinctKeys := by simp [DistinctKeys]

/-! ## What an ordinary reader keeps -/

theorem keys_collapseFields (fs : List (String × Json)) :
    Entries.keys (collapseFields fs) = Entries.keys fs := by
  induction fs with
  | nil => simp [collapseFields]
  | cons f fs ih =>
    obtain ⟨k, v⟩ := f
    simpa [collapseFields, Entries.keys] using ih

mutual
theorem distinctKeys_of_collapse_eq_self : ∀ {v : Json}, v.collapse = v → v.DistinctKeys
  | .null, _ | .bool _, _ | .int _, _ | .double _, _ | .str _, _ => by simp
  | .arr vs, h => by
    rw [collapse, arr.injEq] at h
    rw [DistinctKeys]
    exact distinctItems_of_collapse_eq_self h
  | .obj fs, h => by
    rw [collapse, obj.injEq] at h
    have hn : (Entries.keys fs).Nodup := h ▸ Entries.nodup_keys_ofList (collapseFields fs)
    rw [Entries.ofList_of_nodup (by rwa [keys_collapseFields])] at h
    rw [DistinctKeys]
    exact ⟨hn, distinctFields_of_collapse_eq_self h⟩

theorem distinctItems_of_collapse_eq_self : ∀ {vs : List Json}, collapseItems vs = vs → DistinctItems vs
  | [], _ => by simp [DistinctItems]
  | v :: vs, h => by
    rw [collapseItems, List.cons.injEq] at h
    rw [DistinctItems]
    exact ⟨distinctKeys_of_collapse_eq_self h.1, distinctItems_of_collapse_eq_self h.2⟩

theorem distinctFields_of_collapse_eq_self :
    ∀ {fs : List (String × Json)}, collapseFields fs = fs → DistinctFields fs
  | [], _ => by simp [DistinctFields]
  | (k, v) :: fs, h => by
    rw [collapseFields, List.cons.injEq, Prod.mk.injEq] at h
    rw [DistinctFields]
    exact ⟨distinctKeys_of_collapse_eq_self h.1.2, distinctFields_of_collapse_eq_self h.2⟩
end

/-- **A tree is read as it stands** exactly if it names no key twice. -/
theorem collapse_eq_self_iff {v : Json} : v.collapse = v ↔ v.DistinctKeys :=
  ⟨distinctKeys_of_collapse_eq_self, collapse_eq_self⟩

/-! ## Fields that may be absent -/

theorem mem_field?_iff {key : String} {v : Option Json} {f : String × Json} :
    f ∈ field? key v ↔ f.1 = key ∧ v = some f.2 := by
  obtain ⟨k, w⟩ := f
  cases v with
  | none => simp [field?]
  | some u => simp [field?, eq_comm]

/-- **The fields that have a value**, of all that there might be. -/
def present (slots : List (String × Option Json)) : List (String × Json) :=
  slots.flatMap fun slot => field? slot.1 slot.2

theorem cons_eq_field?_append (key : String) (v : Json) (fs : List (String × Json)) :
    (key, v) :: fs = field? key (some v) ++ fs := rfl

theorem flag_eq_field? (key : String) (b : Bool) :
    flag key b = field? key (if b then some (bool true) else none) := by
  cases b <;> rfl

theorem keys_present_sublist (slots : List (String × Option Json)) :
    (Entries.keys (present slots)).Sublist (Entries.keys slots) := by
  induction slots with
  | nil => exact List.Sublist.refl []
  | cons slot slots ih =>
    obtain ⟨key, v⟩ := slot
    cases v with
    | none => exact ih.cons key
    | some v => exact ih.cons_cons key

/-- **An object with at most one field for each key** names no key twice if no value of it does. -/
theorem distinctKeys_present_iff {slots : List (String × Option Json)} (hn : (Entries.keys slots).Nodup) :
    (obj (present slots)).DistinctKeys ↔ ∀ slot ∈ slots, ∀ v, slot.2 = some v → v.DistinctKeys := by
  rw [distinctKeys_obj_iff, and_iff_right (hn.sublist (keys_present_sublist slots))]
  constructor
  · intro h slot hslot v hv
    exact h (slot.1, v) (List.mem_flatMap.mpr ⟨slot, hslot, mem_field?_iff.mpr ⟨rfl, hv⟩⟩)
  · intro h f hf
    obtain ⟨slot, hslot, hf⟩ := List.mem_flatMap.mp hf
    exact h slot hslot f.2 (mem_field?_iff.mp hf).2

/-! ## Numbers and scalars -/

theorem distinctKeys_of_scaledDouble? {negative : Bool} {n : Nat} {k : Int} {v : Json}
    (h : scaledDouble? negative n k = some v) : v.DistinctKeys := by
  obtain ⟨x, -, rfl⟩ := Option.map_eq_some_iff.mp h
  simp

theorem distinctKeys_of_wholeNumber? {negative : Bool} {ds : List Char} {v : Json}
    (h : wholeNumber? negative ds = some v) : v.DistinctKeys := by
  unfold wholeNumber? at h
  simp only at h
  split_ifs at h
  · exact distinctKeys_of_scaledDouble? h
  · obtain rfl := Option.some.inj h
    simp
  · exact distinctKeys_of_scaledDouble? h
  · obtain rfl := Option.some.inj h
    simp

theorem distinctKeys_of_unsignedNumber? {negative : Bool} {cs rest : List Char} {v : Json}
    (h : unsignedNumber? negative cs = some (v, rest)) : v.DistinctKeys := by
  unfold unsignedNumber? at h
  simp only at h
  split at h
  · simp at h
  · split at h
    · split at h
      · simp at h
      · obtain ⟨p, -, h⟩ := Option.bind_eq_some_iff.mp h
        obtain ⟨w, hw, h⟩ := Option.map_eq_some_iff.mp h
        obtain ⟨rfl, -⟩ := Prod.mk.inj h
        exact distinctKeys_of_scaledDouble? hw
    · obtain ⟨p, -, h⟩ := Option.bind_eq_some_iff.mp h
      split at h
      · obtain ⟨w, hw, h⟩ := Option.map_eq_some_iff.mp h
        obtain ⟨rfl, -⟩ := Prod.mk.inj h
        exact distinctKeys_of_wholeNumber? hw
      · obtain ⟨w, hw, h⟩ := Option.map_eq_some_iff.mp h
        obtain ⟨rfl, -⟩ := Prod.mk.inj h
        exact distinctKeys_of_scaledDouble? hw

/-! ## Texts -/

/-- A reader of values that name no key twice. -/
def ReadsDistinct (value : Reader Json) : Prop :=
  ∀ {cs : List Char} {v : Json} {rest : List Char}, value cs = some (v, rest) → v.DistinctKeys

theorem readsDistinct_number? : ReadsDistinct number? := by
  intro cs v rest h
  unfold number? at h
  split at h
  · exact distinctKeys_of_unsignedNumber? h
  · exact distinctKeys_of_unsignedNumber? h

variable {value : Reader Json}

theorem distinctKeys_of_itemsFrom (hvalue : ReadsDistinct value) {n : Nat} {cs rest : List Char}
    {vs : List Json} (h : itemsFrom value n cs = some (vs, rest)) : ∀ v ∈ vs, v.DistinctKeys := by
  induction n generalizing cs vs with
  | zero => simp [itemsFrom] at h
  | succ n ih =>
    rw [itemsFrom] at h
    obtain ⟨⟨v, r⟩, hv, h⟩ := Option.bind_eq_some_iff.mp h
    simp only at h
    split at h
    · obtain ⟨⟨ws, r'⟩, hws, h⟩ := Option.map_eq_some_iff.mp h
      obtain ⟨rfl, rfl⟩ := Prod.mk.inj h
      exact List.forall_mem_cons.mpr ⟨hvalue hv, ih hws⟩
    · obtain ⟨rfl, -⟩ := Prod.mk.inj (Option.some.inj h)
      simpa using hvalue hv
    · simp at h

theorem readsDistinct_array? (hvalue : ReadsDistinct value) : ReadsDistinct (array? value) := by
  intro cs v rest h
  unfold array? at h
  split at h
  · obtain ⟨rfl, -⟩ := Prod.mk.inj (Option.some.inj h)
    simp [distinctKeys_arr_iff]
  · obtain ⟨⟨vs, r⟩, hvs, h⟩ := Option.map_eq_some_iff.mp h
    obtain ⟨rfl, -⟩ := Prod.mk.inj h
    exact distinctKeys_arr_iff.mpr (distinctKeys_of_itemsFrom hvalue hvs)

theorem distinctKeys_of_fieldAt (hvalue : ReadsDistinct value) {cs rest : List Char}
    {f : String × Json} (h : fieldAt value cs = some (f, rest)) : f.2.DistinctKeys := by
  unfold fieldAt at h
  split at h
  · obtain ⟨⟨k, r⟩, -, h⟩ := Option.bind_eq_some_iff.mp h
    simp only at h
    split at h
    · obtain ⟨⟨v, r'⟩, hv, h⟩ := Option.map_eq_some_iff.mp h
      obtain ⟨rfl, -⟩ := Prod.mk.inj h
      exact hvalue hv
    · simp at h
  · simp at h

theorem distinctKeys_of_fieldsFrom (hvalue : ReadsDistinct value) {n : Nat} {cs rest : List Char}
    {fs : List (String × Json)} (h : fieldsFrom value n cs = some (fs, rest)) :
    ∀ f ∈ fs, f.2.DistinctKeys := by
  induction n generalizing cs fs with
  | zero => simp [fieldsFrom] at h
  | succ n ih =>
    rw [fieldsFrom] at h
    obtain ⟨⟨f, r⟩, hf, h⟩ := Option.bind_eq_some_iff.mp h
    simp only at h
    split at h
    · obtain ⟨⟨gs, r'⟩, hgs, h⟩ := Option.map_eq_some_iff.mp h
      obtain ⟨rfl, rfl⟩ := Prod.mk.inj h
      exact List.forall_mem_cons.mpr ⟨distinctKeys_of_fieldAt hvalue hf, ih hgs⟩
    · obtain ⟨rfl, -⟩ := Prod.mk.inj (Option.some.inj h)
      simpa using distinctKeys_of_fieldAt hvalue hf
    · simp at h

/-- **An object keeps each key once**, whatever its text repeats. -/
theorem readsDistinct_object? (hvalue : ReadsDistinct value) : ReadsDistinct (object? value) := by
  intro cs v rest h
  unfold object? at h
  split at h
  · obtain ⟨rfl, -⟩ := Prod.mk.inj (Option.some.inj h)
    simp [distinctKeys_obj_iff]
  · obtain ⟨⟨fs, r⟩, hfs, h⟩ := Option.map_eq_some_iff.mp h
    obtain ⟨rfl, -⟩ := Prod.mk.inj h
    refine distinctKeys_obj_iff.mpr ⟨Entries.nodup_keys_ofList fs, fun f hf => ?_⟩
    exact distinctKeys_of_fieldsFrom hvalue hfs f (Entries.mem_ofList hf)

theorem readsDistinct_valueWith {array object : Reader Json} (harray : ReadsDistinct array)
    (hobject : ReadsDistinct object) : ReadsDistinct (valueWith array object) := by
  intro cs v rest h
  unfold valueWith at h
  split at h
  · obtain ⟨rfl, -⟩ := Prod.mk.inj (Option.some.inj h)
    simp
  · obtain ⟨rfl, -⟩ := Prod.mk.inj (Option.some.inj h)
    simp
  · obtain ⟨rfl, -⟩ := Prod.mk.inj (Option.some.inj h)
    simp
  · obtain ⟨⟨s, r⟩, -, h⟩ := Option.map_eq_some_iff.mp h
    obtain ⟨rfl, -⟩ := Prod.mk.inj h
    simp
  · exact harray h
  · exact hobject h
  · exact readsDistinct_number? h

theorem readsDistinct_valueAt (n : Nat) : ReadsDistinct (valueAt n) := by
  induction n with
  | zero => exact readsDistinct_valueWith (fun h => by simp at h) fun h => by simp at h
  | succ n ih => exact readsDistinct_valueWith (readsDistinct_array? ih) (readsDistinct_object? ih)

/-- **A text says a value that names no key twice.** -/
theorem distinctKeys_of_ofChars? {cs : List Char} {v : Json} (h : ofChars? cs = some v) :
    v.DistinctKeys := by
  obtain ⟨⟨w, rest⟩, hw, h⟩ := Option.bind_eq_some_iff.mp h
  simp only at h
  split at h
  · obtain rfl := Option.some.inj h
    exact readsDistinct_valueAt maxNesting hw
  · simp at h

end ResourceQuery.Json

namespace ResourceQuery

theorem Scalar.distinctKeys_coerce (s : String) : (coerce s).DistinctKeys := by
  have number : ∀ v, number? s.toList = some v → v.DistinctKeys := by
    intro v h
    obtain ⟨d, -, h⟩ := Option.bind_eq_some_iff.mp h
    unfold ofDecimal at h
    split at h
    · obtain rfl := Option.some.inj h
      simp
    · obtain ⟨x, -, rfl⟩ := Option.map_eq_some_iff.mp h
      unfold ofBinary64
      split
      · split <;> simp
      · simp
  unfold coerce
  split_ifs
  · simp
  · simp
  · simp
  · cases h : number? s.toList with
    | none => simp
    | some v => exact number v h

theorem ListLiteral.distinctKeys_items (q : Quoting) (cs : List Char) :
    ∀ v ∈ items q cs, v.DistinctKeys := by
  fun_induction items q cs with
  | case1 => simp
  | case2 cs ih => exact List.forall_mem_cons.mpr ⟨by simp, ih⟩
  | case3 c cs hc ih => exact List.forall_mem_cons.mpr ⟨Scalar.distinctKeys_coerce _, ih⟩

end ResourceQuery
