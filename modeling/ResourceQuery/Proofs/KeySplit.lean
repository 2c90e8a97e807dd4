import ResourceQuery.QueryParams
import ResourceQuery.Select.Aliases

/-! # The path and the key there

A dotted key is split into the labels that lead into an embed and the key there (`split_dottedKey`). Nothing
of the key is lost in the split, so two keys never stand for the same key at the same place (`split_inj`). A
reserved key has no points, and is itself where it leads (`split_of_reserved`). The labels go as far as the tree
does, which leaves only one split (`split_eq_iff_leadsTo`). -/

namespace ResourceQuery

namespace Text

theorem joinWith_append_joinWith (sep : List Char) (ps : List (List Char)) {qs : List (List Char)}
    (h : qs ≠ []) : joinWith sep (ps ++ [joinWith sep qs]) = joinWith sep (ps ++ qs) := by
  induction ps with
  | nil => rfl
  | cons p ps ih =>
    rw [List.cons_append, List.cons_append, joinWith_cons_of_ne_nil _ _ (by simp),
      joinWith_cons_of_ne_nil _ _ (by simp [h]), ih]

end Text

namespace AliasTree

/-- **The labels and the key there, joined by points, are the whole key.** -/
theorem joinWith_split (t : AliasTree) (key : String) :
    Text.joinWith ['.'] ((t.split key).1.map String.toList ++ [(t.split key).2.toList]) =
      key.toList := by
  have hne := splitParts_ne_nil t (Text.splitOn_ne_nil '.' key.toList)
  simp only [split, String.toList_ofList]
  rw [Text.joinWith_append_joinWith _ _ hne, splitParts_append, Text.joinWith_splitOn]

/-- **Different keys go to different places, or are different there.** -/
theorem split_inj (t : AliasTree) {key key' : String} (h : t.split key = t.split key') :
    key = key' := by
  have hk := joinWith_split t key
  rw [h, joinWith_split t key'] at hk
  exact String.toList_inj.mp hk.symm

theorem split_of_not_mem (t : AliasTree) {key : String} (h : '.' ∉ key.toList) :
    t.split key = ([], key) := by
  simp only [split, Text.splitOn_of_not_mem h, splitParts, Text.joinWith, String.ofList_toList]

theorem split_empty (key : String) : empty.split key = ([], key) := by
  have hparts : ∀ ps, splitParts empty ps = ([], ps) := by
    intro ps
    rcases ps with _ | ⟨p, _ | ⟨q, ps⟩⟩ <;> rfl
  rw [split, hparts]
  show ([], String.ofList (Text.joinWith ['.'] (Text.splitOn '.' key.toList))) = _
  rw [Text.joinWith_splitOn, String.ofList_toList]

theorem split_of_reserved (t : AliasTree) {key : String} (h : key ∈ reservedKeys) :
    t.split key = ([], key) := by
  have hpoint : ∀ k ∈ reservedKeys, '.' ∉ k.toList := by decide
  exact t.split_of_not_mem (hpoint key h)

end AliasTree

/-! ## Keys made of labels and a name -/

/-- **The key of a column behind labels.** -/
def dottedKey (labels : List String) (column : String) : String :=
  String.ofList (Text.joinWith ['.'] (labels.map String.toList ++ [column.toList]))

section Dotted

variable {labels : List String} {column : String} (hlabels : ∀ l ∈ labels, '.' ∉ l.toList)
  (hcolumn : '.' ∉ column.toList)

include hlabels in
theorem splitOn_dottedKey_append (rest : String) : Text.splitOn '.' (dottedKey labels rest).toList =
    labels.map String.toList ++ Text.splitOn '.' rest.toList := by
  have hpieces : ∀ p ∈ labels.map String.toList, '.' ∉ p := by
    intro p hp
    obtain ⟨l, hl, rfl⟩ := List.mem_map.mp hp
    exact hlabels l hl
  have h := Text.splitOn_joinWith_append hpieces rest.toList []
  rw [List.append_nil, List.append_nil] at h
  rw [dottedKey, String.toList_ofList, h]

include hlabels hcolumn in
theorem splitOn_dottedKey : Text.splitOn '.' (dottedKey labels column).toList =
    labels.map String.toList ++ [column.toList] := by
  rw [splitOn_dottedKey_append hlabels, Text.splitOn_of_not_mem hcolumn]

include hlabels hcolumn in
theorem column_of_dottedKey {word last : String} (h : dottedKey labels column = word)
    (hlast : (Text.splitOn '.' word.toList).getLast? = some last.toList) : column = last := by
  rw [← h, splitOn_dottedKey hlabels hcolumn, List.getLast?_append] at hlast
  exact String.toList_inj.mp (by simpa using hlast)

theorem mem_dottedKey (hne : labels ≠ []) : '.' ∈ (dottedKey labels column).toList := by
  obtain ⟨l, ls, rfl⟩ := List.exists_cons_of_ne_nil hne
  rw [dottedKey, String.toList_ofList, List.map_cons, List.cons_append,
    Text.joinWith_cons_of_ne_nil _ _ (by simp)]
  simp

end Dotted

namespace AliasTree

theorem splitParts_cons {t inner : AliasTree} {l : String} (hget : get? l t = some inner)
    {ps : List (List Char)} (hne : ps ≠ []) :
    splitParts t (l.toList :: ps) = (l :: (splitParts inner ps).1, (splitParts inner ps).2) := by
  obtain ⟨q, qs, rfl⟩ := List.exists_cons_of_ne_nil hne
  rw [splitParts, String.ofList_toList, hget]
  rfl

theorem splitParts_labels (t : AliasTree) (labels : List String) (column : List Char) :
    ∃ reached left, labels = reached ++ left ∧
      splitParts t (labels.map String.toList ++ [column]) = (reached, left.map String.toList ++ [column]) ∧
      (left = [] ↔ (walk? labels t).isSome) := by
  induction labels generalizing t with
  | nil => exact ⟨[], [], rfl, rfl, by simp [walk?]⟩
  | cons l ls ih =>
    rw [List.map_cons, List.cons_append, walk?]
    cases hget : get? l t with
    | none =>
      obtain ⟨q, ps, hrest⟩ := List.exists_cons_of_ne_nil
        (show ls.map String.toList ++ [column] ≠ [] by simp)
      refine ⟨[], l :: ls, rfl, ?_, by simp⟩
      rw [List.map_cons, List.cons_append, hrest, splitParts, String.ofList_toList, hget]
    | some inner =>
      obtain ⟨reached, left, rfl, hsplit, hleft⟩ := ih inner
      refine ⟨l :: reached, left, rfl, ?_, by simpa using hleft⟩
      rw [splitParts_cons hget (by simp), hsplit]

/-- **Where the key of a column behind labels leads**: along the labels as far as the tree goes. -/
theorem split_dottedKey (t : AliasTree) {labels : List String} {column : String}
    (hlabels : ∀ l ∈ labels, '.' ∉ l.toList) (hcolumn : '.' ∉ column.toList) :
    ∃ reached left, labels = reached ++ left ∧
      t.split (dottedKey labels column) = (reached, dottedKey left column) ∧
      (left = [] ↔ (walk? labels t).isSome) := by
  obtain ⟨reached, left, hpath, hsplit, hleft⟩ := splitParts_labels t labels column.toList
  refine ⟨reached, left, hpath, ?_, hleft⟩
  rw [split, splitOn_dottedKey hlabels hcolumn, hsplit]
  rfl

/-! ## The only split -/

/-- **What a key is split into**: labels without points that lead from the root to a level of the tree, and a
key there whose part before the first point is no label of that level. -/
structure LeadsTo (t : AliasTree) (key : String) (labels : List String) (rest : String) : Prop where
  whole : dottedKey labels rest = key
  no_point : ∀ l ∈ labels, '.' ∉ l.toList
  stops : ∃ level, walk? labels t = some level ∧
    ∀ before after : String, rest = before ++ "." ++ after → '.' ∉ before.toList → get? before level = none

theorem splitOn_split (t : AliasTree) (key : String) :
    Text.splitOn '.' (t.split key).2.toList = (splitParts t (Text.splitOn '.' key.toList)).2 := by
  have hparts := splitParts_append t (Text.splitOn '.' key.toList)
  have hpoint : ∀ p ∈ (splitParts t (Text.splitOn '.' key.toList)).2, '.' ∉ p := by
    intro p hp
    have hmem : p ∈ Text.splitOn '.' key.toList := hparts ▸ List.mem_append_right _ hp
    exact Text.not_mem_of_mem_splitOn hmem
  rw [split, String.toList_ofList,
    Text.splitOn_joinWith (splitParts_ne_nil t (Text.splitOn_ne_nil '.' key.toList)) hpoint]

theorem leadsTo_split (t : AliasTree) (key : String) : t.LeadsTo key (t.split key).1 (t.split key).2 := by
  have hparts := splitParts_append t (Text.splitOn '.' key.toList)
  refine ⟨?_, fun l hl => ?_, ?_⟩
  · exact String.toList_inj.mp (by rw [dottedKey, String.toList_ofList, joinWith_split])
  · have hmem : l.toList ∈ Text.splitOn '.' key.toList :=
      hparts ▸ List.mem_append_left _ (List.mem_map_of_mem hl)
    exact Text.not_mem_of_mem_splitOn hmem
  · obtain ⟨level, hwalk, hstop⟩ := splitParts_chain t (Text.splitOn '.' key.toList)
    refine ⟨level, hwalk, fun before after hrest hbefore => ?_⟩
    obtain ⟨q, qs, hafter⟩ := List.exists_cons_of_ne_nil (Text.splitOn_ne_nil '.' after.toList)
    have hpieces : (splitParts t (Text.splitOn '.' key.toList)).2 = before.toList :: q :: qs := by
      rw [← splitOn_split, hrest, String.append_assoc, String.toList_append, String.toList_append, ← hafter]
      exact Text.splitOn_append hbefore
    rw [← String.ofList_toList (s := before)]
    exact hstop _ q qs hpieces

/-- Labels that lead to a level are split off in front of parts that go on with no label of it. -/
theorem splitParts_append_of_walk? {t level : AliasTree} {labels : List String}
    (hwalk : walk? labels t = some level) {ps : List (List Char)} (hne : ps ≠ [])
    (hstop : ∀ p q qs, ps = p :: q :: qs → get? (String.ofList p) level = none) :
    splitParts t (labels.map String.toList ++ ps) = (labels, ps) := by
  induction labels generalizing t with
  | nil =>
    obtain rfl : t = level := Option.some.inj hwalk
    rcases ps with _ | ⟨p, _ | ⟨q, qs⟩⟩
    · exact absurd rfl hne
    · rfl
    · rw [List.map_nil, List.nil_append, splitParts, hstop p q qs rfl]
  | cons l ls ih =>
    obtain ⟨inner, hget, hwalk⟩ := Option.bind_eq_some_iff.mp hwalk
    rw [List.map_cons, List.cons_append, splitParts_cons hget (by simp [hne]), ih hwalk]

theorem LeadsTo.split_eq {t : AliasTree} {key : String} {labels : List String} {rest : String}
    (h : t.LeadsTo key labels rest) : t.split key = (labels, rest) := by
  obtain ⟨rfl, hpoint, level, hwalk, hstop⟩ := h
  -- A first piece with others behind it is what stands before the first point.
  have hstop : ∀ p q qs, Text.splitOn '.' rest.toList = p :: q :: qs →
      get? (String.ofList p) level = none := by
    intro p q qs hpieces
    have hmem : p ∈ Text.splitOn '.' rest.toList := by rw [hpieces]; exact List.mem_cons_self
    have hjoin := Text.joinWith_splitOn '.' rest.toList
    rw [hpieces, Text.joinWith_cons_of_ne_nil _ _ (List.cons_ne_nil q qs)] at hjoin
    refine hstop (String.ofList p) (String.ofList (Text.joinWith ['.'] (q :: qs))) ?_ ?_
    · exact String.toList_inj.mp (by simpa using hjoin.symm)
    · simpa using Text.not_mem_of_mem_splitOn hmem
  have hparts := splitParts_append_of_walk? hwalk (Text.splitOn_ne_nil '.' rest.toList) hstop
  rw [split, splitOn_dottedKey_append hpoint, hparts]
  simp only [Text.joinWith_splitOn, String.ofList_toList]

/-- **A key has one split**, which is the one with these properties, and no other key has the same. -/
theorem split_eq_iff_leadsTo (t : AliasTree) :
    (∀ key labels rest, t.split key = (labels, rest) ↔ t.LeadsTo key labels rest) ∧
    ∀ key key', t.split key = t.split key' ↔ key = key' := by
  refine ⟨fun key labels rest => ⟨fun h => ?_, LeadsTo.split_eq⟩, fun key key' => ⟨t.split_inj, fun h => h ▸ rfl⟩⟩
  have hleads := t.leadsTo_split key
  rwa [h] at hleads

/-- A label may be empty; one with a point in it is never reached. -/
example :
    let t : AliasTree := .node [("", .node [("lines", .empty)]), ("a.b", .empty)]
    t.split ".lines.price.x" = (["", "lines"], "price.x") ∧ t.split "a.b.c" = ([], "a.b.c") := by
  decide

end AliasTree

theorem isReserved_iff {key : String} : isReserved key = true ↔ key ∈ reservedKeys := by
  simp [isReserved]

theorem isWindowKey_iff {key : String} : isWindowKey key = true ↔ key ∈ windowKeys := by
  simp [isWindowKey]

end ResourceQuery
