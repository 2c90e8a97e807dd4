import ResourceQuery.Proofs.KeySplit
import ResourceQuery.Proofs.Entries
import ResourceQuery.Proofs.Refusal
import ResourceQuery.Window

/-! # What the windows of a request are

A window key goes to one place, and there each of the three keys has a part of the window for itself. So the
window at a place is made of the first values of the keys that lead there, whatever their order
(`at?_ofParams`, `set_at?_ofParams`), and an embed has a window if and only if one does. Parameters are
refused if and only if one of them is (`exists_ofParams_iff`). -/

namespace ResourceQuery

namespace Window

/-- What a value says under one of the three keys, if it can be read. -/
def set (w : Window) (key value : String) : Window :=
  if key = "order" then { w with order := Order.parse value }
  else if key = "limit" then { w with limit := count? value }
  else if key = "offset" then { w with offset := count? value }
  else w

/-- **A value that can be read** under a key: for a limit and an offset, a number. -/
def Readable (key value : String) : Prop := key = "limit" ∨ key = "offset" → (count? value).isSome

theorem count_eq_ok {fullKey value : String} {n : Nat} :
    count fullKey value = .ok n ↔ count? value = some n := by
  unfold count
  cases count? value <;> simp

/-- **A value that can be read is set**, and no other one is accepted. -/
theorem apply_eq_ok {fullKey key value : String} {w w' : Window} :
    apply fullKey key value w = .ok w' ↔ Readable key value ∧ w' = w.set key value := by
  have accepted : ∀ v : Window, (Except.ok v : Except WindowError Window) = .ok w' ↔ w' = v := by
    intro v
    rw [Except.ok.injEq]
    exact eq_comm
  have counted : ∀ put : Nat → Window,
      (count fullKey value).map put = .ok w' ↔ ∃ n, count? value = some n ∧ w' = put n := by
    intro put
    simp only [Refusal.map_eq_ok, count_eq_ok, @eq_comm _ w']
  unfold apply Readable set
  split_ifs with horder hlimit hoffset
  · rw [accepted]
    simp [horder]
  · rw [counted]
    cases count? value <;> simp [hlimit]
  · rw [counted]
    cases count? value <;> simp [hoffset]
  · rw [accepted]
    simp [hlimit, hoffset]

theorem foldl_set {β : Type} (part : Window → β) (own : String) (read : String → β)
    (hset : ∀ w key value, part (w.set key value) = if key = own then read value else part w)
    {es : List (String × List String)} (hn : (Entries.keys es).Nodup) (w : Window) :
    part (es.foldl (fun w e => w.set e.1 (e.2.headD "")) w) =
      ((Entries.get? own es).map fun values => read (values.headD "")).getD (part w) := by
  induction es generalizing w with
  | nil => rfl
  | cons e es ih =>
    rw [Entries.keys_cons, List.nodup_cons] at hn
    rw [List.foldl_cons, ih hn.2, hset, Entries.get?_cons]
    by_cases hown : e.1 = own
    · have hnone : Entries.get? own es = none := Entries.get?_eq_none_iff.mpr (hown ▸ hn.1)
      simp [hown, hnone]
    · simp [hown]

/-- **The window that keys with values make**, each key with its first value. -/
def ofEntries (es : List (String × List String)) : Window where
  order := (Entries.get? "order" es).bind fun values => Order.parse (values.headD "")
  limit := (Entries.get? "limit" es).bind fun values => count? (values.headD "")
  offset := (Entries.get? "offset" es).bind fun values => count? (values.headD "")

theorem order_set (w : Window) (key value : String) :
    (w.set key value).order = if key = "order" then Order.parse value else w.order := by
  unfold set
  split_ifs <;> simp_all

theorem limit_set (w : Window) (key value : String) :
    (w.set key value).limit = if key = "limit" then count? value else w.limit := by
  unfold set
  split_ifs <;> simp_all

theorem offset_set (w : Window) (key value : String) :
    (w.set key value).offset = if key = "offset" then count? value else w.offset := by
  unfold set
  split_ifs <;> simp_all

theorem foldl_set_all {es : List (String × List String)} (hn : (Entries.keys es).Nodup) :
    es.foldl (fun w e => w.set e.1 (e.2.headD "")) all = ofEntries es := by
  have horder := foldl_set Window.order "order" Order.parse order_set hn all
  have hlimit := foldl_set Window.limit "limit" count? limit_set hn all
  have hoffset := foldl_set Window.offset "offset" count? offset_set hn all
  have hparts : ∀ w : Window, w.order = (ofEntries es).order → w.limit = (ofEntries es).limit →
      w.offset = (ofEntries es).offset → w = ofEntries es := by
    rintro ⟨order, limit, offset⟩ rfl rfl rfl
    rfl
  refine hparts _ (horder.trans ?_) (hlimit.trans ?_) (hoffset.trans ?_)
  · unfold ofEntries
    cases Entries.get? "order" es <;> rfl
  · unfold ofEntries
    cases Entries.get? "limit" es <;> rfl
  · unfold ofEntries
    cases Entries.get? "offset" es <;> rfl

/-- What a key says stands in the window already. -/
theorem set_ofEntries {es : List (String × List String)} {key : String} {values : List String}
    (h : Entries.get? key es = some values) : (ofEntries es).set key (values.headD "") = ofEntries es := by
  unfold set
  split_ifs with horder hlimit hoffset
  · subst horder
    simp [ofEntries, h]
  · subst hlimit
    simp [ofEntries, h]
  · subst hoffset
    simp [ofEntries, h]
  · rfl

theorem order_ofEntries_ne (es : List (String × List String)) : (ofEntries es).order ≠ some [] := by
  intro h
  obtain ⟨values, -, h⟩ := Option.bind_eq_some_iff.mp h
  unfold Order.parse at h
  split at h <;> simp at h

end Window

namespace Windows

/-- The window at a path; that of the request itself is always there. -/
def at? (path : List String) (ws : Windows) : Option Window :=
  if path = [] then some ws.top else Entries.get? path ws.embedded

/-- A parameter as it is called at a path, if it orders or cuts the rows there. -/
def placedAt? (tree : AliasTree) (path : List String) (e : String × List String) :
    Option (String × List String) :=
  if isWindowKey (tree.split e.1).2 ∧ (tree.split e.1).1 = path then some ((tree.split e.1).2, e.2)
  else none

/-- **The window keys that lead to a path**, as they are called there, with their values. -/
def routed (tree : AliasTree) (path : List String) (entries : List (String × List String)) :
    List (String × List String) :=
  entries.filterMap (placedAt? tree path)

theorem placedAt?_eq_some {tree : AliasTree} {path : List String} {e e' : String × List String} :
    placedAt? tree path e = some e' ↔
      isWindowKey e'.1 ∧ tree.split e.1 = (path, e'.1) ∧ e'.2 = e.2 := by
  obtain ⟨key, values⟩ := e'
  unfold placedAt?
  generalize tree.split e.1 = p
  obtain ⟨path', rest⟩ := p
  split
  · rename_i h
    obtain ⟨hkey, rfl⟩ := h
    constructor
    · intro h
      obtain ⟨rfl, rfl⟩ := Prod.mk.inj (Option.some.inj h)
      exact ⟨hkey, rfl, rfl⟩
    · rintro ⟨-, hsplit, rfl⟩
      obtain ⟨-, rfl⟩ := Prod.mk.inj hsplit
      rfl
  · rename_i h
    refine iff_of_false (by simp) ?_
    rintro ⟨hkey, hsplit, -⟩
    obtain ⟨rfl, rfl⟩ := Prod.mk.inj hsplit
    exact h ⟨hkey, rfl⟩

theorem nodup_routed (tree : AliasTree) (path : List String)
    {entries : List (String × List String)} (h : (Entries.keys entries).Nodup) :
    (Entries.keys (routed tree path entries)).Nodup := by
  refine Entries.nodup_keys_filterMap h fun d e d' e' hd he hname => ?_
  have h1 := (placedAt?_eq_some.mp hd).2.1
  have h2 := (placedAt?_eq_some.mp he).2.1
  rw [← hname, ← h1] at h2
  exact AliasTree.split_inj tree h2.symm

/-! ## One parameter, and all of them -/

theorem at?_modify {path : List String} {change : Window → Except WindowError Window}
    {ws ws' : Windows} (h : modify path change ws = .ok ws') :
    ∃ w, change ((at? path ws).getD .all) = .ok w ∧
      ∀ p, at? p ws' = if p = path then some w else at? p ws := by
  unfold modify at h
  split at h
  · obtain ⟨w, hw, rfl⟩ := Refusal.map_eq_ok.mp h
    exact ⟨w, by simpa [at?] using hw, fun p => by by_cases hp : p = [] <;> simp [at?, hp]⟩
  · rename_i hne
    have hne : path ≠ [] := fun hp => hne hp
    obtain ⟨w, hw, rfl⟩ := Refusal.map_eq_ok.mp h
    refine ⟨w, by simpa [at?, hne] using hw, fun p => ?_⟩
    by_cases hp : p = []
    · subst hp
      simp [at?, Ne.symm hne]
    · simp [at?, hp, eq_comm]

theorem exists_modify_iff {path : List String} {change : Window → Except WindowError Window}
    {ws : Windows} :
    (∃ ws', modify path change ws = .ok ws') ↔ ∃ w, change ((at? path ws).getD .all) = .ok w := by
  constructor
  · rintro ⟨ws', h⟩
    obtain ⟨w, hw, -⟩ := at?_modify h
    exact ⟨w, hw⟩
  · rintro ⟨w, hw⟩
    unfold modify
    split
    · exact ⟨_, Refusal.map_eq_ok.mpr ⟨w, by simpa [at?] using hw, rfl⟩⟩
    · rename_i hne
      rw [at?, if_neg fun hp => hne hp] at hw
      exact ⟨_, Refusal.map_eq_ok.mpr ⟨w, hw, rfl⟩⟩

theorem step_eq (tree : AliasTree) (ws : Windows) {e : String × List String} (hvalues : e.2 ≠ []) :
    step tree ws e = if isWindowKey (tree.split e.1).2 then
      modify (tree.split e.1).1 (Window.apply e.1 (tree.split e.1).2 (e.2.headD "")) ws else .ok ws := by
  unfold step
  cases hvs : e.2 with
  | nil => exact absurd hvs hvalues
  | cons value values => rfl

theorem at?_step {tree : AliasTree} {ws ws' : Windows} {e : String × List String}
    (hvalues : e.2 ≠ []) (h : step tree ws e = .ok ws') (path : List String) :
    at? path ws' = match placedAt? tree path e with
      | none => at? path ws
      | some e' => some (((at? path ws).getD .all).set e'.1 (e'.2.headD "")) := by
  rw [step_eq tree ws hvalues] at h
  unfold placedAt?
  split at h
  · rename_i hkey
    obtain ⟨w, hw, hat⟩ := at?_modify h
    obtain ⟨-, rfl⟩ := Window.apply_eq_ok.mp hw
    rw [hat]
    by_cases hpath : (tree.split e.1).1 = path
    · simp [hkey, hpath]
    · simp [hpath, Ne.symm hpath]
  · rename_i hkey
    obtain rfl := Except.ok.inj h
    simp [hkey]

/-- **What parameters do at a path** is what the keys that lead there do. -/
theorem at?_foldlM (tree : AliasTree) (path : List String) {es : List (String × List String)}
    (hvalues : ∀ e ∈ es, e.2 ≠ []) {ws ws' : Windows} (h : es.foldlM (step tree) ws = .ok ws') :
    at? path ws' = if routed tree path es = [] then at? path ws else
      some ((routed tree path es).foldl (fun w e => w.set e.1 (e.2.headD ""))
        ((at? path ws).getD .all)) := by
  induction es generalizing ws with
  | nil =>
    obtain rfl : ws = ws' := Except.ok.inj h
    rfl
  | cons e es ih =>
    obtain ⟨vs, hstep, h⟩ := Refusal.foldlM_cons_eq_ok.mp h
    have hfirst := at?_step (hvalues e (by simp)) hstep path
    rw [ih (fun d hd => hvalues d (by simp [hd])) h, hfirst, routed, routed, List.filterMap_cons]
    cases placedAt? tree path e with
    | none => rfl
    | some e' => by_cases hnil : es.filterMap (placedAt? tree path) = [] <;> simp [hnil]

/-- **The window at a path is made of the keys that lead there**, and where none does an embed has none. -/
theorem at?_ofParams {params : QueryParams} {tree : AliasTree} {ws : Windows}
    (h : ofParams params tree = .ok ws) (path : List String) :
    at? path ws = if routed tree path params.entries = [] ∧ path ≠ [] then none
      else some (.ofEntries (routed tree path params.entries)) := by
  have hn := nodup_routed tree path params.nodup_keys
  rw [at?_foldlM tree path params.values_ne_nil h]
  have hempty : (at? path ⟨.all, []⟩).getD .all = .all := by
    by_cases hp : path = [] <;> simp [at?, hp]
  rw [hempty, Window.foldl_set_all hn]
  by_cases hnil : routed tree path params.entries = []
  · by_cases hp : path = []
    · rw [if_pos hnil, hnil, if_neg (by simp [hp]), hp]
      rfl
    · rw [if_pos hnil, if_pos ⟨hnil, hp⟩, at?, if_neg hp]
      rfl
  · rw [if_neg hnil, if_neg (by simp [hnil])]

/-- **What a key says stands in the window at its place**, and can be read. -/
theorem set_at?_ofParams {params : QueryParams} {tree : AliasTree} {ws : Windows}
    (h : ofParams params tree = .ok ws) {e : String × List String} (he : e ∈ params.entries)
    (hkey : isWindowKey (tree.split e.1).2 = true) :
    ((at? (tree.split e.1).1 ws).getD .all).set (tree.split e.1).2 (e.2.headD "") =
      (at? (tree.split e.1).1 ws).getD .all := by
  have hmem : ((tree.split e.1).2, e.2) ∈ routed tree (tree.split e.1).1 params.entries :=
    List.mem_filterMap.mpr ⟨e, he, placedAt?_eq_some.mpr ⟨hkey, rfl, rfl⟩⟩
  have hget := Entries.get?_of_mem (nodup_routed tree _ params.nodup_keys) hmem
  rw [at?_ofParams h, if_neg fun hnil => List.ne_nil_of_mem hmem hnil.1, Option.getD_some]
  exact Window.set_ofEntries hget

theorem exists_step_iff {params : QueryParams} (tree : AliasTree) (ws : Windows)
    {e : String × List String} (he : e ∈ params.entries) :
    (∃ ws', step tree ws e = .ok ws') ↔ Window.Readable (tree.split e.1).2 (e.2.headD "") := by
  rw [step_eq tree ws (params.values_ne_nil e he)]
  split
  · rw [exists_modify_iff]
    simp only [Window.apply_eq_ok, exists_and_left, exists_eq, and_true]
  · rename_i hkey
    refine iff_of_true ⟨ws, rfl⟩ fun hcount => ?_
    rcases hcount with h | h <;> exact absurd (by rw [h]; decide) hkey

/-- **Parameters make windows if and only if every limit and offset is a number**, wherever it leads. -/
theorem exists_ofParams_iff (params : QueryParams) (tree : AliasTree) :
    (∃ ws, ofParams params tree = .ok ws) ↔
      ∀ e ∈ params.entries, Window.Readable (tree.split e.1).2 (e.2.headD "") :=
  Refusal.exists_foldlM_iff _ fun ws _ he => exists_step_iff tree ws he

end Windows

end ResourceQuery
