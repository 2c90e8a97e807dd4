import ResourceQuery.Proofs.Select.Said

/-! # Lists that are too deep

The text of a list whose embeds stand too deep inside one another is refused for that reason, at the
opening parenthesis of one of them (`parse_render_tooDeep`). The entries before it are not too deep and are
read as they were written, so nothing else is found wrong first; the text after it does not matter. -/

namespace ResourceQuery.Select

open Text (Reader skipLayout)

variable {α β γ : Type}

/-- **A reader stops at an opening parenthesis**, where embeds get too deep. -/
def StopsTooDeep (reader : Reader Fault β) (cs : List Char) : Prop :=
  ∃ before after, cs = before ++ '(' :: after ∧ reader cs = .error ⟨.tooDeep, '(' :: after⟩

theorem StopsTooDeep.of_part {reader : Reader Fault β} {whole : Reader Fault γ} {cs : List Char}
    (h : StopsTooDeep reader cs) (lead : List Char)
    (herror : ∀ f, reader cs = .error f → whole (lead ++ cs) = .error f) :
    StopsTooDeep whole (lead ++ cs) := by
  obtain ⟨before, after, rfl, hreader⟩ := h
  exact ⟨lead ++ before, after, (List.append_assoc ..).symm, herror _ hreader⟩

theorem separated_tooDeep {join : JoinMap} {items : List (Item α)} {n : Nat}
    (h : ∀ i ∈ items, i.WellFormed join) (hdepth : n < depthOf items)
    (hstops : ∀ i ∈ items, n < i.depth → ∀ rest, Follows rest →
      StopsTooDeep (node (bodyAt n)) (itemText join i ++ rest))
    {rest : List Char} (hrest : Follows rest) :
    StopsTooDeep (Text.separated (node (bodyAt n)) comma?) (itemsText join items ++ rest) := by
  have hshrinks := (yields_node (yields_bodyAt n)).shrinks
  induction items with
  | nil => simp [depthOf] at hdepth
  | cons i is ih =>
    have htext : itemsText join (i :: is) ++ rest = itemText join i ++ (itemsTailText join is ++ rest) := by
      rw [itemsText, List.append_assoc]
    have hfollows : Follows (itemsTailText join is ++ rest) := by
      cases is with
      | nil => exact hrest
      | cons j js => exact follows_comma _
    rw [htext]
    by_cases hi : n < i.depth
    · refine (hstops i List.mem_cons_self hi _ hfollows).of_part [] fun f hf => ?_
      rw [List.nil_append, Text.separated_eq hshrinks takes_comma?.consumes, hf]
    · -- this entry is read, and one of the others is too deep
      have hread := node_itemText (h i List.mem_cons_self) (Nat.le_of_not_lt hi) hfollows
      have hrest' : n < depthOf is := by
        rw [depthOf] at hdepth
        omega
      have htail : itemsTailText join is ++ rest = [','] ++ (itemsText join is ++ rest) := by
        cases is with
        | nil => simp [depthOf] at hrest'
        | cons j js => simp [itemsText, itemsTailText]
      have hcomma : comma? ([','] ++ (itemsText join is ++ rest)) = some (itemsText join is ++ rest) := by
        have hskip : skipLayout (',' :: (itemsText join is ++ rest)) = _ :=
          Text.skipLayout_cons_of_not (by decide)
        simp [comma?, hskip]
      have ih := ih (fun j hj => h j (List.mem_cons_of_mem i hj)) hrest'
        fun j hj => hstops j (List.mem_cons_of_mem i hj)
      rw [htail, ← List.append_assoc] at hread ⊢
      refine ih.of_part _ fun f hf => ?_
      rw [List.append_assoc] at hread ⊢
      rw [Text.separated_eq hshrinks takes_comma?.consumes, hread]
      simp only [hcomma, hf]

theorem query_tooDeep {join : JoinMap} {items : List (Item α)} {n : Nat}
    (h : ∀ i ∈ items, i.WellFormed join) (hdepth : n < depthOf items)
    (hstops : ∀ i ∈ items, n < i.depth → ∀ rest, Follows rest →
      StopsTooDeep (node (bodyAt n)) (itemText join i ++ rest))
    {rest : List Char} (hrest : Follows rest) :
    StopsTooDeep (query (bodyAt n)) (itemsText join items ++ rest) := by
  have hne : items ≠ [] := by
    rintro rfl
    simp [depthOf] at hdepth
  obtain ⟨c, r, htext, hc, hparen⟩ := exists_cons_itemsText join hne rest
  have hskip : skipLayout (itemsText join items ++ rest) = c :: r := by
    rw [htext, Text.skipLayout_cons_of_not hc]
  refine (separated_tooDeep h hdepth hstops hrest).of_part [] fun f hf => ?_
  rw [List.nil_append, query_eq_separated hskip hparen, ← htext, hf]

/-- **The list of an embed is refused** if no more levels are left for it. -/
theorem bodyAt_tooDeep {join : JoinMap} {items : List (Item α)} (hne : items ≠ []) {n : Nat}
    {rest : List Char} (hquery : ∀ k, n = k + 1 →
      StopsTooDeep (query (bodyAt k)) (itemsText join items ++ ')' :: rest)) :
    StopsTooDeep (bodyAt n) ('(' :: (itemsText join items ++ ')' :: rest)) := by
  cases n with
  | zero =>
    have hskip : skipLayout ('(' :: (itemsText join items ++ ')' :: rest)) = _ :=
      Text.skipLayout_cons_of_not (by decide)
    exact ⟨[], _, rfl, by simp only [bodyAt, hskip]⟩
  | succ k =>
    refine (hquery k rfl).of_part ['('] fun f hf => ?_
    rw [List.singleton_append, bodyAt_paren hne, hf]
    rfl

/-- **An entry is refused** if its embeds are too deep. -/
theorem node_tooDeep {join : JoinMap} {i : Item α} (h : i.WellFormed join) {n : Nat}
    (hdepth : n < i.depth) {rest : List Char} (hrest : Follows rest) :
    StopsTooDeep (node (bodyAt n)) (itemText join i ++ rest) := by
  induction h generalizing n rest with
  | star => simp [Item.depth] at hdepth
  | column => simp [Item.depth] at hdepth
  | field => simp [Item.depth] at hdepth
  | @embed join label items note spread inner hlabel hjoin hne hitems ih =>
    have hbody : StopsTooDeep (bodyAt n)
        ('(' :: (itemsText (inner.getD []) items ++ ')' :: rest)) := by
      refine bodyAt_tooDeep hne ?_
      rintro k rfl
      rw [Item.depth] at hdepth
      exact query_tooDeep hitems (Nat.lt_of_succ_lt_succ hdepth)
        (fun i hi hk rest hrest => ih i hi hk hrest) (follows_paren rest)
    rw [itemText_embed]
    refine hbody.of_part _ fun f hf => ?_
    rw [node_embedHead hlabel hjoin (head?_itemsText_ne (inner.getD []) hne (')' :: rest)), hf]
    rfl

/-- **A list that is too deep is refused as such**, where the text opens the list of an embed. -/
theorem parse_render_tooDeep {join : JoinMap} {items : List (Item α)}
    (h : ∀ i ∈ items, i.WellFormed join) (hdepth : maxNesting < depthOf items) :
    ∃ before after, (render items join).toList = before ++ '(' :: after ∧
      parse (some (render items join)) = .error (.tooDeep (Text.byteLength before)) := by
  have hquery := query_tooDeep h hdepth
    (fun i hi hn rest hrest => node_tooDeep (h i hi) hn hrest) follows_nil
  rw [List.append_nil] at hquery
  obtain ⟨before, after, htext, herror⟩ := hquery
  have hread : readAll (itemsText join items) = .error ⟨.tooDeep, '(' :: after⟩ := by
    unfold readAll
    simp only [herror, bind, Except.bind]
  have hposition : SelectError.ofFault (itemsText join items) ⟨.tooDeep, '(' :: after⟩ =
      .tooDeep (Text.byteLength before) := by
    rw [htext]
    simp only [SelectError.ofFault, Text.byteLength_append, Nat.add_sub_cancel]
  refine ⟨before, after, by rw [render, String.toList_ofList, htext], ?_⟩
  simp only [parse, nodesOf, render, Option.getD_some, String.toList_ofList, hread, hposition,
    Except.map]

end ResourceQuery.Select
