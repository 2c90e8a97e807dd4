import Mathlib
import ResourceQuery.Proofs.Select.Embeds
import ResourceQuery.Proofs.Statement.Parts

/-! # Conditions at the embeds

Filters and windows of embeds are collected by path, apart from the select list, and put into it when the
statement is made. Nothing is lost or changed on the way (`carries_of_translate`): the conditions at an
embed are those of its path, every path with conditions has an embed, and without the conditions the list
is the one that was read.

Conditions are collected at paths of the tree of labels only (`ledTo_filters`, `ledTo_windows`), and the
tree leads to embeds. -/

namespace ResourceQuery

/-! ## Paths with conditions -/

/-- Paths into embeds, to which the tree of labels leads some key. -/
def AliasTree.LedTo (tree : AliasTree) (paths : List (List String)) : Prop :=
  ∀ path ∈ paths, path ≠ [] ∧ ∃ key, (tree.split key).1 = path

theorem AliasTree.LedTo.insert {tree : AliasTree} {β : Type} {es : List (List String × β)}
    (h : tree.LedTo (Entries.keys es)) {key : String} (hne : (tree.split key).1 ≠ []) (v : β) :
    tree.LedTo (Entries.keys (Entries.insert (tree.split key).1 v es)) := by
  intro path hpath
  rcases Entries.mem_keys_update.mp hpath with rfl | hpath
  · exact ⟨hne, key, rfl⟩
  · exact h path hpath

theorem ledTo_filters {params : QueryParams} {tree : AliasTree} {fs : Filters}
    (h : Filters.ofParams params tree = .ok fs) : tree.LedTo (Entries.keys fs.embedded) := by
  refine Refusal.foldlM_invariant (P := fun fs => tree.LedTo (Entries.keys fs.embedded)) ?_
    (by simp [AliasTree.LedTo]) h
  intro fs e fs' hled hstep
  unfold Filters.step at hstep
  split at hstep
  · obtain rfl := Except.ok.inj hstep
    exact hled
  · simp only at hstep
    split at hstep
    · obtain rfl := Except.ok.inj hstep
      exact hled
    · unfold Filters.modify at hstep
      split at hstep
      · obtain ⟨f, -, rfl⟩ := Refusal.map_eq_ok.mp hstep
        exact hled
      · rename_i hne
        obtain ⟨f, -, rfl⟩ := Refusal.map_eq_ok.mp hstep
        exact hled.insert (fun hp => hne hp) f

theorem ledTo_windows {params : QueryParams} {tree : AliasTree} {ws : Windows}
    (h : Windows.ofParams params tree = .ok ws) : tree.LedTo (Entries.keys ws.embedded) := by
  refine Refusal.foldlM_invariant (P := fun ws => tree.LedTo (Entries.keys ws.embedded)) ?_
    (by simp [AliasTree.LedTo]) h
  intro ws e ws' hled hstep
  unfold Windows.step at hstep
  split at hstep
  · obtain rfl := Except.ok.inj hstep
    exact hled
  · simp only at hstep
    split at hstep
    · unfold Windows.modify at hstep
      split at hstep
      · obtain ⟨w, -, rfl⟩ := Refusal.map_eq_ok.mp hstep
        exact hled
      · rename_i hne
        obtain ⟨w, -, rfl⟩ := Refusal.map_eq_ok.mp hstep
        exact hled.insert (fun hp => hne hp) w
    · obtain rfl := Except.ok.inj hstep
      exact hled

/-- **A path to which the labels of a list lead is that of an embed.** -/
theorem exists_embedAt_of_ledTo {nodes : List Select.Node} {paths : List (List String)}
    (h : (Select.aliasTree nodes).LedTo paths) {path : List String} (hpath : path ∈ paths) :
    ∃ i, Select.EmbedAt (Select.itemsOf nodes) path i := by
  obtain ⟨hne, key, rfl⟩ := h path hpath
  obtain ⟨u, hwalk, -⟩ :=
    AliasTree.splitParts_chain (Select.aliasTree nodes) (Text.splitOn '.' key.toList)
  exact Select.exists_embedAt_of_walk? hne hwalk

/-! ## What is put into a list -/

namespace Statement

open Select (EmbedAt)

variable {at_ : List String → EmbedConditions}

theorem attach_eq_map (path : List String) (items : List (Select.Item Unit)) :
    attach at_ path items = items.map (attachItem at_ path) := by
  induction items with
  | nil => simp [attach]
  | cons i is ih => simp [attach, ih]

theorem mem_attach {path : List String} {items : List (Select.Item Unit)} {label : String}
    {inner : List (Select.Item EmbedConditions)} {note : EmbedConditions} {spread : Bool}
    {join : Option Select.JoinMap}
    (h : .embed label inner note spread join ∈ attach at_ path items) :
    note = at_ (path ++ [label]) ∧
      ∃ inner', .embed label inner' () spread join ∈ items ∧
        inner = attach at_ (path ++ [label]) inner' := by
  rw [attach_eq_map] at h
  obtain ⟨i, hi, heq⟩ := List.mem_map.mp h
  cases i with
  | star => simp [attachItem] at heq
  | column name => simp [attachItem] at heq
  | field label field => simp [attachItem] at heq
  | embed label' inner' note' spread' join' =>
    simp only [attachItem, Select.Item.embed.injEq] at heq
    obtain ⟨rfl, rfl, rfl, rfl, rfl⟩ := heq
    exact ⟨rfl, inner', hi, rfl⟩

/-- **The conditions at an embed are those of its path**, and without them it stood there before. -/
theorem embed_of_embedAt {items : List (Select.Item EmbedConditions)} {path : List String}
    {i : Select.Item EmbedConditions} (h : EmbedAt items path i)
    {start : List String} {items' : List (Select.Item Unit)} (hitems : items = attach at_ start items')
    {label : String} {inner : List (Select.Item EmbedConditions)} {note : EmbedConditions}
    {spread : Bool} {join : Option Select.JoinMap} (hi : i = .embed label inner note spread join) :
    note = at_ (start ++ path) ∧ ∃ inner', EmbedAt items' path (.embed label inner' () spread join) ∧
      inner = attach at_ (start ++ path) inner' := by
  induction h generalizing start items' with
  | here hmem =>
    subst hitems
    simp only [Select.Item.embed.injEq] at hi
    obtain ⟨rfl, rfl, rfl, rfl, rfl⟩ := hi
    obtain ⟨hnote, inner', hmem', hinner⟩ := mem_attach hmem
    exact ⟨hnote, inner', .here hmem', hinner⟩
  | inside hmem _ ih =>
    subst hitems
    obtain ⟨-, inner', hmem', hinner⟩ := mem_attach hmem
    obtain ⟨hnote, inner'', hat, hinner'⟩ := ih hinner hi
    rw [List.append_assoc, List.singleton_append] at hnote hinner'
    exact ⟨hnote, inner'', .inside hmem' hat, hinner'⟩

theorem note_of_embedAt {items : List (Select.Item EmbedConditions)} {path : List String}
    {i : Select.Item EmbedConditions} (h : EmbedAt items path i)
    {start : List String} {items' : List (Select.Item Unit)} (hitems : items = attach at_ start items')
    {label : String} {inner : List (Select.Item EmbedConditions)} {note : EmbedConditions}
    {spread : Bool} {join : Option Select.JoinMap} (hi : i = .embed label inner note spread join) :
    note = at_ (start ++ path) := (embed_of_embedAt h hitems hi).1

/-- **Every embed is still there.** -/
theorem embedAt_attach {items : List (Select.Item Unit)} {path : List String}
    {i : Select.Item Unit} (h : EmbedAt items path i) (start : List String) :
    ∃ j, EmbedAt (attach at_ start items) path j := by
  have attached : ∀ {items : List (Select.Item Unit)} {label inner note spread join},
      Select.Item.embed label inner note spread join ∈ items → ∀ start,
        .embed label (attach at_ (start ++ [label]) inner) (at_ (start ++ [label])) spread join ∈
          attach at_ start items := by
    intro items label inner note spread join hmem start
    rw [attach_eq_map]
    exact List.mem_map.mpr ⟨_, hmem, by rw [attachItem]⟩
  induction h generalizing start with
  | here hmem => exact ⟨_, .here (attached hmem start)⟩
  | inside hmem _ ih =>
    obtain ⟨j, hj⟩ := ih (start ++ [_])
    exact ⟨j, .inside (attached hmem start) hj⟩

theorem getD_select? (filters : Filters) (windows : Windows) (items : List (Select.Item Unit)) :
    (select? filters windows items).getD [] = attach (conditionsAt filters windows) [] items := by
  cases items with
  | nil => simp [select?, attach]
  | cons i is => rfl

theorem isSome_select? {filters : Filters} {windows : Windows} {items : List (Select.Item Unit)} :
    (select? filters windows items).isSome ↔ items ≠ [] := by
  cases items <;> simp [select?]

theorem getD_join? (join : Select.JoinMap) : (join? join).getD [] = join := by
  cases join <;> rfl

end Statement

/-! ## The select list of a statement -/

/-- **A statement carries the select list and the conditions that were read.** -/
structure Statement.Carries (s : Statement) (p : Parts) : Prop where
  /-- An embed has the conditions of its path, and no others. -/
  conditions : ∀ path label inner note spread join,
    Select.EmbedAt (s.select.getD []) path (.embed label inner note spread join) →
      note.filter = Entries.get? path p.filters.embedded ∧
      note.window = (Entries.get? path p.windows.embedded).getD .all
  /-- A path with conditions has an embed. -/
  found : ∀ path, path ∈ Entries.keys p.filters.embedded ∨ path ∈ Entries.keys p.windows.embedded →
    ∃ i, Select.EmbedAt (s.select.getD []) path i
  /-- There is a list if there are entries. -/
  isSome_iff : s.select.isSome ↔ p.selection.items ≠ []
  /-- Without the conditions it is the list that was read. -/
  strip_eq : Statement.strip (s.select.getD []) = p.selection.items
  /-- The joins of the outermost level stand beside it. -/
  join_eq : s.join.getD [] = p.selection.join

/-- **Conditions are put at their embeds, exactly and without loss.** -/
theorem carries_of_translate {basePath : String} {r : Request} {s : Statement}
    (h : Translator.translate { basePath } r = .ok s) :
    ∃ p : Parts, p.ReadFrom { basePath } r ∧ s.Carries p := by
  obtain ⟨p, hread, rfl⟩ := Translator.translate_eq_ok.mp h
  have hselect : (Parts.statement { basePath } r p).select.getD [] =
      Statement.attach (Statement.conditionsAt p.filters p.windows) [] p.selection.items :=
    Statement.getD_select? _ _ _
  refine ⟨p, hread, ?_, ?_, Statement.isSome_select?, ?_, Statement.getD_join? _⟩
  · intro path label inner note spread join hat
    rw [Statement.note_of_embedAt hat hselect rfl]
    exact ⟨rfl, rfl⟩
  · intro path hpath
    -- the labels are those of the nodes that the text says
    obtain ⟨nodes, -, hnodes⟩ := Refusal.map_eq_ok.mp hread.selection
    have hfilters := ledTo_filters hread.filters
    have hwindows := ledTo_windows hread.windows
    rw [← hnodes] at hfilters hwindows
    have hat : ∃ i, Select.EmbedAt p.selection.items path i := by
      rw [← hnodes]
      rcases hpath with hpath | hpath
      · exact exists_embedAt_of_ledTo hfilters hpath
      · exact exists_embedAt_of_ledTo hwindows hpath
    obtain ⟨i, hi⟩ := hat
    rw [hselect]
    exact Statement.embedAt_attach hi []
  · rw [hselect, Statement.strip_attach]

/-- A label that comes twice, with conditions below it. -/
theorem carries_of_translate_repeated :
    let r : Request := ⟨.get, "/?select=a(b()),a(y,b())&a.b.limit=3&a.y=sl.p", [], [], none⟩
    ∃ s, Translator.translate {} r = .ok s ∧ ∃ p : Parts, p.ReadFrom {} r ∧ s.Carries p := by
  intro r
  have h : ∃ s, Translator.translate {} r = .ok s := by
    let p : Parts := ⟨⟨"/", some "select=a(b()),a(y,b())&a.b.limit=3&a.y=sl.p"⟩, .ofNodes
        [.embed "a" .plain false [.embed "b" .plain false [.star]],
          .embed "a" .plain false [.column "y", .embed "b" .plain false [.star]]],
      .empty, ⟨[], [(["a"], [.column "y" [(.comparison .rangeLt, .value (.str "p"))]])]⟩,
      ⟨.all, [(["a", "b"], ⟨none, some 3, none⟩)]⟩⟩
    refine ⟨_, Translator.translate_eq_ok.mpr ⟨p, ⟨?_, ?_, ?_, ?_, ?_⟩, rfl⟩⟩
    all_goals cbv
  obtain ⟨s, h⟩ := h
  exact ⟨s, h, carries_of_translate h⟩

end ResourceQuery
