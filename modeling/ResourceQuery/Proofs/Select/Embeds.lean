import ResourceQuery.Proofs.Entries
import ResourceQuery.Select.Basic

/-! # Embeds and their paths

An embed stands at the path of the labels that lead to it. The labels of a list are found in its tree of
labels: where the tree leads somewhere, an embed stands (`exists_embedAt_of_walk?`). The converse fails
for a label that comes again, since the tree keeps the embeds inside the last one only. -/

namespace ResourceQuery.Select

variable {α : Type}

/-- **An embed stands at a path** of a list: at its own label, or inside another one. -/
inductive EmbedAt : List (Item α) → List String → Item α → Prop where
  | here {items inner : List (Item α)} {label : String} {note : α} {spread : Bool}
      {join : Option JoinMap} (h : .embed label inner note spread join ∈ items) :
      EmbedAt items [label] (.embed label inner note spread join)
  | inside {items inner : List (Item α)} {label : String} {note : α} {spread : Bool}
      {join : Option JoinMap} {path : List String} {i : Item α}
      (h : .embed label inner note spread join ∈ items) (hi : EmbedAt inner path i) :
      EmbedAt items (label :: path) i

theorem EmbedAt.mono {items items' : List (Item α)} {path : List String} {i : Item α}
    (h : EmbedAt items path i) (hsub : items ⊆ items') : EmbedAt items' path i := by
  cases h with
  | here hmem => exact .here (hsub hmem)
  | inside hmem hi => exact .inside (hsub hmem) hi

/-- **What holds of every embed**, however deep it stands. -/
def EveryEmbed (Q : Item α → Prop) (items : List (Item α)) : Prop := ∀ path i, EmbedAt items path i → Q i

theorem everyEmbed_nil {Q : Item α → Prop} : EveryEmbed Q [] := by
  intro path i h
  cases h with
  | here hmem => cases hmem
  | inside hmem _ => cases hmem

theorem everyEmbed_cons {Q : Item α → Prop} {i : Item α} {is : List (Item α)} :
    EveryEmbed Q (i :: is) ↔ EveryEmbed Q [i] ∧ EveryEmbed Q is := by
  constructor
  · intro h
    exact ⟨fun _ _ hj => h _ _ (hj.mono (by simp)), fun _ _ hj => h _ _ (hj.mono (by simp))⟩
  · rintro ⟨hi, his⟩ path j hj
    cases hj with
    | here hmem =>
      rcases List.mem_cons.mp hmem with rfl | hmem
      · exact hi _ _ (.here (List.mem_singleton_self _))
      · exact his _ _ (.here hmem)
    | inside hmem hj =>
      rcases List.mem_cons.mp hmem with rfl | hmem
      · exact hi _ _ (.inside (List.mem_singleton_self _) hj)
      · exact his _ _ (.inside hmem hj)

theorem everyEmbed_of_ne {Q : Item α → Prop} {i : Item α}
    (h : ∀ label items note spread join, i ≠ .embed label items note spread join) :
    EveryEmbed Q [i] := by
  intro path j hj
  cases hj with
  | here hmem => exact absurd (List.mem_singleton.mp hmem).symm (h _ _ _ _ _)
  | inside hmem _ => exact absurd (List.mem_singleton.mp hmem).symm (h _ _ _ _ _)

theorem everyEmbed_embed {Q : Item α → Prop} {label : String} {items : List (Item α)} {note : α}
    {spread : Bool} {join : Option JoinMap} : EveryEmbed Q [.embed label items note spread join] ↔
      Q (.embed label items note spread join) ∧ EveryEmbed Q items := by
  constructor
  · intro h
    exact ⟨h _ _ (.here (List.mem_singleton_self _)),
      fun _ _ hi => h _ _ (.inside (List.mem_singleton_self _) hi)⟩
  · rintro ⟨h, hitems⟩ path i hi
    cases hi with
    | here hmem =>
      rw [List.mem_singleton] at hmem
      exact hmem ▸ h
    | inside hmem hi =>
      obtain ⟨-, rfl, -⟩ := by simpa using hmem
      exact hitems _ _ hi

theorem EmbedAt.path_ne_nil {items : List (Item α)} {path : List String} {i : Item α}
    (h : EmbedAt items path i) : path ≠ [] := by
  cases h <;> simp

theorem EmbedAt.exists_eq {items : List (Item α)} {path : List String} {i : Item α}
    (h : EmbedAt items path i) : ∃ label inner note spread join, i = .embed label inner note spread join := by
  induction h with
  | here _ => exact ⟨_, _, _, _, _, rfl⟩
  | inside _ _ ih => exact ih

theorem exists_embed_of_get? {label : String} {nodes : List Node} {t : AliasTree}
    (h : (aliasTree nodes).get? label = some t) :
    ∃ join spread inner, .embed label join spread inner ∈ nodes ∧ t = aliasTree inner := by
  have hmem := Entries.mem_ofList (Entries.mem_of_get? h)
  rw [aliasEntries_eq_filterMap, List.mem_filterMap] at hmem
  obtain ⟨n, hn, hentry⟩ := hmem
  cases n with
  | star => simp [Node.aliasEntry?] at hentry
  | column name => simp [Node.aliasEntry?] at hentry
  | field label field => simp [Node.aliasEntry?] at hentry
  | embed label' join spread inner =>
    simp only [Node.aliasEntry?, Option.some.injEq, Prod.mk.injEq] at hentry
    obtain ⟨rfl, rfl⟩ := hentry
    exact ⟨join, spread, inner, hn, rfl⟩

theorem mem_itemsOf {n : Node} {nodes : List Node} (h : n ∈ nodes) : n.item ∈ itemsOf nodes := by
  rw [itemsOf_eq_map]
  exact List.mem_map.mpr ⟨n, h, rfl⟩

/-- **Where the tree of labels leads, an embed stands.** -/
theorem exists_embedAt_of_walk? {path : List String} {nodes : List Node} {t : AliasTree}
    (hpath : path ≠ []) (h : (aliasTree nodes).walk? path = some t) :
    ∃ i, EmbedAt (itemsOf nodes) path i := by
  induction path generalizing nodes with
  | nil => exact absurd rfl hpath
  | cons label path ih =>
    rw [AliasTree.walk?, Option.bind_eq_some_iff] at h
    obtain ⟨u, hu, hwalk⟩ := h
    obtain ⟨join, spread, inner, hmem, rfl⟩ := exists_embed_of_get? hu
    have hitem := mem_itemsOf hmem
    rw [Node.item] at hitem
    by_cases hnil : path = []
    · subst hnil
      exact ⟨_, .here hitem⟩
    · obtain ⟨i, hi⟩ := ih hnil hwalk
      exact ⟨i, .inside hitem hi⟩

end ResourceQuery.Select
