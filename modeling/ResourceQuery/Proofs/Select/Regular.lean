import ResourceQuery.Proofs.Select.Reread
import ResourceQuery.Proofs.Select.TooDeep

/-! # Lists that are built

A select list need not come from a text: a program may put one together, with the joins of its levels. It
is *regular* if everything in it can be written and nothing stands in it in a form that its text does not
have. Names may be anything without quotes, empty ones and words of the grammar among them, and labels may
come again.

* `Field.Regular`, `Item.Regular`, `LevelJoins`: what is asked of a field, of an entry, and of the joins of
  a level. They are told from the fields and labels alone, without any text.
* `Item.Regular.same`, `LevelJoins.same`: what the text of a regular list says is that list again, and the
  joins of its level.
* `parse_render_regular`: so it is read from its text, unless it is too deep, and is refused for that
  reason if it is. -/

namespace ResourceQuery.Select

variable {α : Type}

/-! ## Fields -/

/-- **What a field computes from a column.** The column is named beside an aggregate or a path, and
otherwise only where it is not the label. -/
structure Field.Computes (label : String) (f : Field) : Prop where
  preCast : f.preCast.isSome → f.aggregate.isSome
  named : f.aggregate.isSome ∨ f.path.isSome → f.column.isSome
  unnamed : f.aggregate = none → f.path = none → f.column ≠ some label
  root : ∀ p ∈ f.path, ∃ rest, p.toList = '$' :: '.' :: rest ∧ ∀ r, rest ≠ '$' :: '.' :: r
  count : f.path = none → f.column.getD label = "count" → f.aggregate.isSome ∧ f.preCast = none

/-- **A regular field** is the count of all rows or is computed from a column. -/
structure Field.Regular (label : String) (f : Field) : Prop where
  column : ∀ c ∈ f.column, Unquoted c
  path : ∀ p ∈ f.path, Unquoted p
  preCast : ∀ c ∈ f.preCast, Unquoted c
  cast : ∀ c ∈ f.cast, Unquoted c
  form : f = .rows f.cast ∨ f.Computes label

theorem Field.Computes.eq_computed {label : String} {f : Field} (h : f.Computes label) :
    f = .computed label (f.column.getD label) f.path f.preCast f.aggregate f.cast := by
  obtain ⟨column, path, preCast, aggregate, cast⟩ := f
  have hnamed := h.named
  have hunnamed := h.unnamed
  cases column with
  | none =>
    have hnone : ¬(aggregate.isSome ∨ path.isSome) := fun hsome => by simpa using hnamed hsome
    simp [computed, hnone]
  | some c =>
    have hsome : c ≠ label ∨ aggregate.isSome ∨ path.isSome := by
      by_cases hc : c = label
      · subst hc
        cases aggregate with
        | some a => simp
        | none =>
          cases path with
          | some p => simp
          | none => exact absurd rfl (hunnamed rfl rfl)
      · exact Or.inl hc
    simp [computed, hsome]

theorem Field.Regular.wellFormed {label : String} {f : Field} (h : f.Regular label)
    (hlabel : Unquoted label) : f.WellFormed label := by
  rcases h.form with hrows | hcomputes
  · rw [hrows]
    exact .rows h.cast
  · rw [hcomputes.eq_computed]
    have hcolumn : Unquoted (f.column.getD label) := by
      cases hc : f.column with
      | none => exact hlabel
      | some c => exact h.column c hc
    refine .computed hcolumn (fun p hp => ?_) h.preCast h.cast hcomputes.preCast
      fun hpath hcount => (hcomputes.count hpath hcount).2
    obtain ⟨rest, hrest, -⟩ := hcomputes.root p hp
    exact ⟨h.path p hp, rest, hrest⟩

theorem Field.Regular.said_eq {label : String} {f : Field} (h : f.Regular label)
    (hlabel : Unquoted label) : f.said label = f := by
  rw [Field.said_eq_self (h.wellFormed hlabel)]
  rcases h.form with hrows | hcomputes
  · rw [hrows]
    exact ⟨by simp [rows], by simp [rows]⟩
  · refine ⟨?_, fun p hp r heq => ?_⟩
    · rintro ⟨hpath, haggregate, hcount⟩
      simpa [haggregate] using (hcomputes.count hpath hcount).1
    · obtain ⟨rest, hrest, hroot⟩ := hcomputes.root p hp
      rw [hrest, List.cons.injEq, List.cons.injEq] at heq
      exact hroot r heq.2.2

/-! ## Entries -/

/-- **The joins of a level**: one under each label of its embeds and no other. Where the last embed with a
label is spread, no resource is named. -/
structure LevelJoins (items : List (Item α)) (join : JoinMap) : Prop where
  nodup : (Entries.keys join).Nodup
  labels : ∀ label, label ∈ Entries.keys join ↔ label ∈ Entries.keys (heads items)
  wellFormed : ∀ e ∈ join, e.2.WellFormed
  spread : ∀ e ∈ join, Entries.get? e.1 (heads items).reverse = some true → e.2.resource = none

theorem LevelJoins.of_heads_nil {items : List (Item α)} (h : heads items = []) :
    LevelJoins items [] := ⟨by simp, by simp [h], by simp, by simp⟩

/-- **A regular entry**, with all that is inside it. -/
inductive Item.Regular : Item Unit → Prop where
  | star : Item.Regular .star
  | column {name : String} (hname : Unquoted name) (hcount : name ≠ "count") :
      Item.Regular (.column name)
  | field {label : String} {f : Field} (hlabel : Unquoted label) (hf : f.Regular label) :
      Item.Regular (.field label f)
  | embed {label : String} {items : List (Item Unit)} {spread : Bool} {inner : Option JoinMap}
      (hlabel : Unquoted label) (hne : items ≠ []) (hinner : inner = none ↔ heads items = [])
      (hjoins : LevelJoins items (inner.getD [])) (hitems : ∀ i ∈ items, Item.Regular i) :
      Item.Regular (.embed label items () spread inner)

theorem LevelJoins.joinOf_wellFormed {items : List (Item α)} {join : JoinMap}
    (h : LevelJoins items join) (label : String) : (joinOf join label).WellFormed := by
  unfold joinOf
  cases hget : Entries.get? label join with
  | none => exact Join.wellFormed_plain
  | some j => exact h.wellFormed _ (Entries.mem_of_get? hget)

theorem Item.Regular.wellFormed {i : Item Unit} (h : i.Regular) {join : JoinMap}
    (hjoin : ∀ label, (joinOf join label).WellFormed) : i.WellFormed join := by
  induction h generalizing join with
  | star => exact .star
  | column hname => exact .column hname
  | field hlabel hf => exact .field hlabel (hf.wellFormed hlabel)
  | embed hlabel hne hinner hjoins hitems ih =>
    exact .embed hlabel (hjoin _) hne fun i hi => ih i hi hjoins.joinOf_wellFormed

/-! ## What comes back -/

/-- The join under a label is said as it is by the last embed with that label. -/
theorem LevelJoins.get?_said {items : List (Item α)} {join : JoinMap} (h : LevelJoins items join)
    {label : String} (hlabel : label ∈ Entries.keys join) :
    Entries.get? label (joins (saidAll join items)) = Entries.get? label join := by
  obtain ⟨j, hj⟩ : ∃ j, Entries.get? label join = some j := by
    cases hget : Entries.get? label join with
    | none => exact absurd hlabel (Entries.get?_eq_none_iff.mp hget)
    | some j => exact ⟨j, rfl⟩
  obtain ⟨spread, hspread⟩ : ∃ spread, Entries.get? label (heads items).reverse = some spread := by
    cases hget : Entries.get? label (heads items).reverse with
    | none =>
      have hmem := (h.labels label).mp hlabel
      have hnot := Entries.get?_eq_none_iff.mp hget
      rw [Entries.keys, List.map_reverse, List.mem_reverse] at hnot
      exact absurd hmem hnot
    | some spread => exact ⟨spread, rfl⟩
  have hsaid : j.said spread = j := by
    cases spread with
    | false => rfl
    | true =>
      have hresource : j.resource = none := h.spread _ (Entries.mem_of_get? hj) hspread
      rw [Join.said, if_pos rfl, ← hresource]
  rw [joins_saidAll, Entries.get?_ofList_map, hj, ← hsaid]
  rw [Entries.get?_eq_find?, Option.map_eq_some_iff] at hspread
  obtain ⟨hd, hfind, rfl⟩ := hspread
  have hkey : hd.1 = label := by simpa using List.find?_some hfind
  rw [hfind, Option.map_some, joinOf, hkey, hj, Option.getD_some]

theorem LevelJoins.mem_keys_said {items : List (Item α)} {join : JoinMap} (h : LevelJoins items join)
    (label : String) :
    label ∈ Entries.keys (joins (saidAll join items)) ↔ label ∈ Entries.keys join := by
  rw [h.labels, joins_saidAll, Entries.mem_keys_ofList]
  simp [Entries.keys]

/-- **The joins of a level come back.** -/
theorem LevelJoins.same {items : List (Item α)} {join : JoinMap} (h : LevelJoins items join) :
    Entries.sameMap (joins (saidAll join items)) join = true := by
  have hn : (Entries.keys (joins (saidAll join items))).Nodup := Entries.nodup_keys_ofList _
  have hlength : (joins (saidAll join items)).length = join.length := by
    have hperm := (List.perm_ext_iff_of_nodup hn h.nodup).mpr h.mem_keys_said
    simpa [Entries.keys] using hperm.length_eq
  rw [Entries.sameMap, Bool.and_eq_true, List.all_eq_true]
  refine ⟨beq_iff_eq.mpr hlength, fun e he => ?_⟩
  have hkey : e.1 ∈ Entries.keys join := by
    rw [← h.mem_keys_said]
    exact List.mem_map_of_mem he
  rw [← h.get?_said hkey, Entries.get?_of_mem hn he]
  simp

theorem LevelJoins.sameJoins {items : List (Item α)} {inner : Option JoinMap}
    (hinner : inner = none ↔ heads items = []) (h : LevelJoins items (inner.getD [])) :
    sameJoins (joins? (saidAll (inner.getD []) items)) inner = true := by
  cases inner with
  | none =>
    have hnone : joins (saidAll [] items) = [] := by
      rw [joins_saidAll, hinner.mp rfl]
      rfl
    simp [joins?, hnone, Select.sameJoins]
  | some join =>
    have hsame := h.same
    simp only [Option.getD_some] at h hsame ⊢
    cases hjoins : joins (saidAll join items) with
    | nil =>
      have hempty : heads items = [] := by
        rw [List.eq_nil_iff_forall_not_mem]
        intro hd hmem
        have hkey := (h.mem_keys_said hd.1).mpr ((h.labels hd.1).mpr (List.mem_map_of_mem hmem))
        simp [hjoins] at hkey
      exact absurd (hinner.mpr hempty) (by simp)
    | cons e es =>
      rw [hjoins] at hsame
      simpa [joins?, hjoins, Select.sameJoins] using hsame

theorem sameItems_saidAll {items : List (Item Unit)} {join : JoinMap}
    (h : ∀ i ∈ items, (i.said join).item.same i = true) :
    sameItems (itemsOf (saidAll join items)) items = true := by
  induction items with
  | nil => simp [saidAll, itemsOf, sameItems]
  | cons i is ih =>
    have ih := ih fun j hj => h j (List.mem_cons_of_mem i hj)
    rw [saidAll, itemsOf, sameItems, h i List.mem_cons_self, ih, Bool.and_self]

/-- **A regular entry comes back**, with the joins inside it. -/
theorem Item.Regular.same {i : Item Unit} (h : i.Regular) (join : JoinMap) :
    (i.said join).item.same i = true := by
  induction h generalizing join with
  | star => simp [said, Node.item, Item.same]
  | column hname hcount => simp [said, hcount, Node.item, Item.same]
  | field hlabel hf => simp [said, Node.item, Item.same, hf.said_eq hlabel]
  | @embed label items spread inner hlabel hne hinner hjoins hitems ih =>
    have hsame := sameItems_saidAll fun i hi => ih i hi (inner.getD [])
    simp [said, Node.item, Item.same, hsame, hjoins.sameJoins hinner]

/-! ## Whole lists -/

/-- **A regular list is read from its text**, with its entries, the joins of every level and its labels, if
its embeds are not too deep; if they are, it is refused for that reason, at one of its parentheses. -/
theorem parse_render_regular {items : List (Item Unit)} {join : JoinMap}
    (hitems : ∀ i ∈ items, i.Regular) (hjoins : LevelJoins items join) :
    (depthOf items ≤ maxNesting → ∃ sel, parse (some (render items join)) = .ok sel ∧
      sameItems sel.items items = true ∧ Entries.sameMap sel.join join = true ∧
      sel.aliases = labelTree items) ∧
    (maxNesting < depthOf items → ∃ before after,
      (render items join).toList = before ++ '(' :: after ∧
      parse (some (render items join)) = .error (.tooDeep (Text.byteLength before))) := by
  have hwf : ∀ i ∈ items, i.WellFormed join :=
    fun i hi => (hitems i hi).wellFormed hjoins.joinOf_wellFormed
  refine ⟨fun hdepth => ?_, parse_render_tooDeep hwf⟩
  exact ⟨.ofNodes (saidAll join items), parse_render hwf hdepth,
    sameItems_saidAll fun i hi => (hitems i hi).same join, hjoins.same, aliasTree_saidAll join items⟩

/-- An embed in an embed, so many times. -/
def nested : Nat → List (Item Unit)
  | 0 => [.star]
  | n + 1 => [.embed "a" (nested n) () false (if n = 0 then none else some [("a", .plain)])]

theorem depthOf_nested (n : Nat) : depthOf (nested n) = n := by
  induction n with
  | zero => simp [nested, depthOf, Item.depth]
  | succ n ih => simp [nested, depthOf, Item.depth, ih]

theorem levelJoins_nested (n : Nat) : LevelJoins (nested (n + 1)) [("a", .plain)] where
  nodup := by simp
  labels := by simp [nested, Item.head?]
  wellFormed := by
    intro e he
    obtain rfl := List.mem_singleton.mp he
    exact Join.wellFormed_plain
  spread := by simp [Join.plain]

theorem regular_nested (n : Nat) : ∀ i ∈ nested n, i.Regular := by
  induction n with
  | zero =>
    intro i hi
    obtain rfl := List.mem_singleton.mp hi
    exact .star
  | succ n ih =>
    intro i hi
    obtain rfl := List.mem_singleton.mp hi
    cases n with
    | zero =>
      exact .embed (by decide) (by simp [nested]) (by decide) (.of_heads_nil rfl) ih
    | succ n =>
      exact .embed (by decide) (by simp [nested]) (by simp [nested, Item.head?])
        (levelJoins_nested n) ih

/-- Names that are words of the grammar, a label that comes again as a spread, and the least nesting that is
too deep. -/
theorem parse_render_regular_words :
    let items : List (Item Unit) :=
      [.column "", .field "n" ⟨some "data", some "$.k k.x", some "int", some .sum, none⟩,
        .embed "left" [.star] () false none,
        .embed "left" [.embed "count" [.field "count" (.rows none)] () false none] () true
          (some [("count", ⟨some "inner", .left, none⟩)])]
    let join : JoinMap := [("left", ⟨none, .inner, some "count"⟩)]
    (∃ sel, parse (some (render items join)) = .ok sel ∧ sameItems sel.items items = true ∧
      Entries.sameMap sel.join join = true ∧ sel.aliases = labelTree items) ∧
    ∃ before after, (render (nested 65) [("a", .plain)]).toList = before ++ '(' :: after ∧
      parse (some (render (nested 65) [("a", .plain)])) =
        .error (.tooDeep (Text.byteLength before)) := by
  intro items join
  have hfield : (Item.field "n"
      ⟨some "data", some "$.k k.x", some "int", some .sum, none⟩).Regular :=
    .field (by decide) ⟨by decide, by decide, by decide, by decide,
      Or.inr ⟨by simp, by simp, by simp, by simp, by simp⟩⟩
  have hcount : (Item.embed "count" [.field "count" (.rows none)] () false none).Regular := by
    refine .embed (by decide) (by simp) (by decide) (.of_heads_nil rfl) fun i hi => ?_
    obtain rfl := List.mem_singleton.mp hi
    exact .field (by decide) ⟨by decide, by decide, by decide, by decide, Or.inl rfl⟩
  have hinner : LevelJoins [Item.embed "count" [.field "count" (.rows none)] () false none]
      [("count", ⟨some "inner", .left, none⟩)] := by
    refine ⟨by simp, by simp [Item.head?], fun e he => ?_, by simp [Item.head?, Entries.get?]⟩
    obtain rfl := List.mem_singleton.mp he
    exact ⟨by decide, by decide⟩
  have hjoins : LevelJoins items join := by
    refine ⟨by simp [join], by simp [items, join, Item.head?], fun e he => ?_, by simp [join]⟩
    obtain rfl := List.mem_singleton.mp he
    exact ⟨by decide, by decide⟩
  have hitems : ∀ i ∈ items, i.Regular := by
    intro i hi
    simp only [items, List.mem_cons, List.not_mem_nil, or_false] at hi
    rcases hi with rfl | rfl | rfl | rfl
    · exact .column (by decide) (by decide)
    · exact hfield
    · refine .embed (by decide) (by simp) (by decide) (.of_heads_nil rfl) fun i hi => ?_
      obtain rfl := List.mem_singleton.mp hi
      exact .star
    · refine .embed (by decide) (by simp) (by decide) hinner fun i hi => ?_
      obtain rfl := List.mem_singleton.mp hi
      exact hcount
  refine ⟨(parse_render_regular hitems hjoins).1 (by decide), ?_⟩
  exact (parse_render_regular (regular_nested 65) (levelJoins_nested 64)).2
    (by rw [depthOf_nested]; decide)

end ResourceQuery.Select
