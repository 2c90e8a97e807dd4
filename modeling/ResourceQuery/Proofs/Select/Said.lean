import ResourceQuery.Proofs.Select.Written

/-! # What a written list says

The text of a list, read again, says the entries of the list one by one (`parse_render`). An entry is
said as it is but for two cases: a column called `count` that nothing else is said about becomes the count
of all rows, and a path loses every `$.` that it starts with, but for the first. -/

namespace ResourceQuery.Select

open Text (Reader skipLayout spanWord)

/-! ## What is said -/

/-- **What the text of a field says.** -/
def Field.said (label : String) (f : Field) : Field :=
  if f.path = none ∧ f.aggregate = none ∧ f.column.getD label = "count" then .rows f.cast
  else { f with path := f.path.map fun _ => pathText ((pathKeys f.path).map String.ofList) }

/-- The join that the text of an embed says. -/
def Join.said (spread : Bool) (join : Join) : Join :=
  { join with resource := if spread then none else join.resource }

variable {α : Type}

mutual
/-- **What the text of an entry says.** -/
def Item.said (join : JoinMap) : Item α → Node
  | .star => .star
  | .column name => if name = "count" then .field name (.rows none) else .column name
  | .field label f => .field label (f.said label)
  | .embed label items _ spread inner =>
    .embed label ((joinOf join label).said spread) spread (saidAll (inner.getD []) items)

/-- What the text of a list says. -/
def saidAll (join : JoinMap) : List (Item α) → List Node
  | [] => []
  | i :: is => i.said join :: saidAll join is
end

theorem saidAll_eq_map (join : JoinMap) (items : List (Item α)) :
    saidAll join items = items.map (Item.said join) := by
  induction items with
  | nil => simp [saidAll]
  | cons i is ih => simp [saidAll, ih]

/-! ## Embeds said -/

/-- The label of an embed, and whether it is spread. -/
def Item.head? : Item α → Option (String × Bool)
  | .embed label _ _ spread _ => some (label, spread)
  | _ => none

/-- **The embeds of a level** by their labels, first to last. -/
def heads (items : List (Item α)) : List (String × Bool) := items.filterMap Item.head?

@[simp] theorem heads_nil : heads ([] : List (Item α)) = [] := rfl

@[simp] theorem heads_cons (i : Item α) (is : List (Item α)) :
    heads (i :: is) = i.head?.toList ++ heads is := by
  rw [heads, List.filterMap_cons]
  cases i.head? <;> rfl

theorem Item.joinEntry?_said (join : JoinMap) (i : Item α) :
    Node.joinEntry? (i.said join) = i.head?.map fun h => (h.1, (joinOf join h.1).said h.2) := by
  cases i with
  | star => simp [said, Node.joinEntry?, head?]
  | column name =>
    rw [said]
    split <;> rfl
  | field label f => simp [said, Node.joinEntry?, head?]
  | embed label items note spread inner => simp [said, Node.joinEntry?, head?]

/-- **The joins that a text says**, under the labels of its embeds. -/
theorem joins_saidAll (join : JoinMap) (items : List (Item α)) :
    joins (saidAll join items) =
      Entries.ofList ((heads items).map fun h => (h.1, (joinOf join h.1).said h.2)) := by
  rw [joins, saidAll_eq_map, List.filterMap_map, heads, List.map_filterMap]
  simp only [Function.comp_def, Item.joinEntry?_said]

mutual
/-- The labels inside an embed, under its own. -/
def Item.aliasEntry? : Item α → Option (String × AliasTree)
  | .embed label items _ _ _ => some (label, .node (Entries.ofList (labelEntries items)))
  | _ => none

/-- The labels of a level's embeds, each with those inside it. -/
def labelEntries : List (Item α) → List (String × AliasTree)
  | [] => []
  | i :: is =>
    match i.aliasEntry? with
    | some e => e :: labelEntries is
    | none => labelEntries is
end

/-- **The labels of a list**, in a tree. -/
def labelTree (items : List (Item α)) : AliasTree := .node (Entries.ofList (labelEntries items))

mutual
theorem Item.aliasEntry?_said (join : JoinMap) :
    (i : Item α) → Node.aliasEntry? (i.said join) = i.aliasEntry?
  | .star => by simp [Item.said, Node.aliasEntry?, Item.aliasEntry?]
  | .column name => by
    rw [Item.said]
    split <;> simp [Node.aliasEntry?, Item.aliasEntry?]
  | .field label f => by simp [Item.said, Node.aliasEntry?, Item.aliasEntry?]
  | .embed label items note spread inner => by
    rw [Item.said, Node.aliasEntry?, Item.aliasEntry?, aliasEntries_saidAll (inner.getD []) items]

theorem aliasEntries_saidAll (join : JoinMap) :
    (items : List (Item α)) → aliasEntries (saidAll join items) = labelEntries items
  | [] => by simp [saidAll, aliasEntries, labelEntries]
  | i :: is => by
    have hentry := Item.aliasEntry?_said join i
    have hrest := aliasEntries_saidAll join is
    cases h : i.aliasEntry? <;> simp [saidAll, aliasEntries, labelEntries, hentry, hrest, h]
end

theorem aliasTree_saidAll (join : JoinMap) (items : List (Item α)) :
    aliasTree (saidAll join items) = labelTree items := by
  rw [aliasTree, aliasEntries_saidAll, labelTree]

variable {body : Reader Fault (List Node)}

/-! ## Fields -/

theorem countNode_castText {cast : Option String} (hcast : ∀ c ∈ cast, Unquoted c)
    (label : Option String) {rest : List Char} (hrest : Follows rest) :
    countNode label (castText cast ++ rest) =
      .ok (.field (label.getD "count") (.rows cast), rest) := by
  obtain ⟨-, hcolon, -, -⟩ := hrest.no_mark
  have hparens : ∀ r, castText cast ++ rest ≠ '(' :: ')' :: r := by
    intro r heq
    cases cast with
    | some t => simp [castText] at heq
    | none => exact absurd (hrest '(' (by simpa [castText] using congrArg List.head? heq)) (by decide)
  unfold countNode
  split
  · rename_i heq
    exact absurd heq (hparens _)
  · simp only [cast?_castText hcast hrest.endsWord hcolon, bind, Except.bind, pure, Except.pure,
      Field.rows]

theorem field_count {cast : Option String} (hcast : ∀ c ∈ cast, Unquoted c) (label : Option String)
    {rest : List Char} (hrest : Follows rest) :
    field body "count" label ('(' :: ')' :: (castText cast ++ rest)) =
      .ok (.field (label.getD "count") (.rows cast), rest) := by
  obtain ⟨-, hcolon, -, -⟩ := hrest.no_mark
  unfold field
  rw [Text.skipLayout_cons_of_not (by decide)]
  simp only [countFollows, and_self, if_true, countNode, cast?_castText hcast hrest.endsWord hcolon,
    bind, Except.bind, pure, Except.pure, Field.rows]

theorem pathKeys_eq_nil {path : Option String} : pathKeys path = [] ↔ path = none := by
  cases path with
  | none => simp [pathKeys]
  | some p => simp [pathKeys, Text.splitOn_ne_nil]

theorem Field.said_rows (label : String) (cast : Option String) :
    (Field.rows cast).said label = .rows cast := if_neg (by simp [rows])

theorem Field.said_computed (label column : String) (path preCast : Option String)
    (aggregate : Option Aggregate) (cast : Option String) :
    (Field.computed label column path preCast aggregate cast).said label =
      if path = none ∧ aggregate = none ∧ column = "count" then .rows cast
      else .computed label column (path.map fun _ => pathText ((pathKeys path).map String.ofList))
        preCast aggregate cast := by
  have hcolumn := getD_column_computed label column path preCast aggregate cast
  unfold said
  rw [hcolumn]
  cases path <;> rfl

/-- **The entry of a column is what its text says**, under its label or with the label implied. -/
theorem columnNode_said {label column : String} {path preCast : Option String}
    {aggregate : Option Aggregate} {cast : Option String} {label? : Option String}
    (hlabel : label? = some label ∨ label? = none ∧ label = impliedLabel column (pathKeys path) ∧
      Field.computed label column path preCast aggregate cast ≠ .plain)
    (hcount : ¬(path = none ∧ aggregate = none ∧ column = "count")) :
    columnNode column label?
        (if pathKeys path = [] then none else some ((pathKeys path).map String.ofList))
        (preCast, aggregate, cast) =
      .field label ((Field.computed label column path preCast aggregate cast).said label) := by
  have hpath : (if pathKeys path = [] then none else some ((pathKeys path).map String.ofList)) =
      path.map fun _ => (pathKeys path).map String.ofList := by
    cases path with
    | none => rfl
    | some p => rw [if_neg (by simp [pathKeys_eq_nil])]; rfl
  rw [hpath, Field.said_computed, if_neg hcount]
  have hkey : (label?.or ((path.map fun _ => (pathKeys path).map String.ofList).bind
      List.getLast?)).getD column = label := by
    obtain rfl | ⟨rfl, himplied, -⟩ := hlabel
    · rfl
    · rw [himplied]
      cases path with
      | none => rfl
      | some p =>
        have hne : pathKeys (some p) ≠ [] := by simp [pathKeys_eq_nil]
        simp [impliedLabel, List.getLast?_eq_some_getLast hne]
  have hsays : ¬(label?.or ((path.map fun _ => (pathKeys path).map String.ofList).bind
        List.getLast?) = none ∧
      (path.map fun _ => (pathKeys path).map String.ofList).map pathText = none ∧
      preCast = none ∧ aggregate = none ∧ cast = none) := by
    rintro ⟨hnone, hp, rfl, rfl, rfl⟩
    obtain rfl : path = none := by simpa using hp
    obtain rfl | ⟨rfl, himplied, hplain⟩ := hlabel
    · simp at hnone
    · refine hplain ?_
      rw [himplied]
      simp [Field.computed, Field.plain, impliedLabel, pathKeys]
  unfold columnNode
  simp only
  rw [if_neg hsays, hkey]
  simp only [Field.computed, Option.isSome_map, Option.map_map, Function.comp_def]

theorem field_castText {cast : Option String} (hcast : ∀ c ∈ cast, Unquoted c) (label : Option String)
    {rest : List Char} (hrest : Follows rest) (hafter : AfterColumn (castText cast ++ rest)) :
    field body "count" label (castText cast ++ rest) =
      .ok (.field (label.getD "count") (.rows cast), rest) := by
  have hfollows : countFollows (castText cast ++ rest) = true := by
    cases cast with
    | none => exact hrest.countFollows
    | some t => rfl
  unfold field
  simp only [hafter.skipLayout, hfollows, and_self, if_true]
  exact countNode_castText hcast label hrest

theorem countFollows_columnText {label column : String} {path preCast : Option String}
    {aggregate : Option Aggregate} {cast : Option String}
    (hcount : path = none → column = "count" → preCast = none)
    (hrows : ¬(path = none ∧ aggregate = none ∧ column = "count")) (rest : List Char) :
    ¬(column = "count" ∧ countFollows (keysText (pathKeys path) ++
      (tailText (.computed label column path preCast aggregate cast) ++ rest)) = true) := by
  rintro ⟨hcolumn, hfollows⟩
  cases path with
  | some p =>
    cases hkeys : pathKeys (some p) with
    | nil => simp [pathKeys_eq_nil] at hkeys
    | cons k ks =>
      rw [hkeys] at hfollows
      simp [keysText, countFollows] at hfollows
  | none =>
    obtain rfl : preCast = none := hcount rfl hcolumn
    cases aggregate with
    | none => exact hrows ⟨rfl, rfl, hcolumn⟩
    | some a => simp [keysText, pathKeys, tailText, Field.computed, castText, countFollows] at hfollows

theorem field_columnText {label column : String} {path preCast : Option String}
    {aggregate : Option Aggregate} {cast : Option String}
    (hf : ∀ p ∈ path, Unquoted p) (hpre : ∀ c ∈ preCast, Unquoted c) (hcast : ∀ c ∈ cast, Unquoted c)
    (hagg : preCast.isSome → aggregate.isSome)
    (hcount : path = none → column = "count" → preCast = none) {label? : Option String}
    (hlabel : label? = some label ∨ label? = none ∧ label = impliedLabel column (pathKeys path) ∧
      Field.computed label column path preCast aggregate cast ≠ .plain)
    {rest : List Char} (hrest : Follows rest) :
    field body column label? (keysText (pathKeys path) ++
        (tailText (.computed label column path preCast aggregate cast) ++ rest)) =
      .ok (.field label ((Field.computed label column path preCast aggregate cast).said label),
        rest) := by
  have hafter := afterColumn_keysText (pathKeys path)
    (.computed label column path preCast aggregate cast) hrest
  by_cases hrows : path = none ∧ aggregate = none ∧ column = "count"
  · obtain ⟨rfl, rfl, rfl⟩ := hrows
    obtain rfl : preCast = none := hcount rfl rfl
    have hkey : label?.getD "count" = label := by
      obtain rfl | ⟨rfl, himplied, -⟩ := hlabel
      · rfl
      · exact himplied.symm
    have htext : keysText (pathKeys none) ++
        (tailText (.computed label "count" none none none cast) ++ rest) = castText cast ++ rest := rfl
    rw [htext] at hafter ⊢
    rw [field_castText hcast label? hrest hafter, hkey, Field.said_computed, if_pos ⟨rfl, rfl, rfl⟩]
  · have hends := (afterColumn_tailText (.computed label column path preCast aggregate cast) hrest).endsWord
    have htail : tail (tailText (.computed label column path preCast aggregate cast) ++ rest) =
        .ok ((preCast, aggregate, cast), rest) := tail_tailText hpre hcast hagg hrest
    rw [field_of_afterColumn hafter (countFollows_columnText hcount hrows rest),
      ← columnNode_said hlabel hrows]
    unfold columnField
    simp only [path?_keysText (not_mem_pathKeys hf) hends (arrow?_tailText _ hrest), bind, Except.bind,
      htail, pure, Except.pure]

theorem identText_count : identText "count" = "count".toList := by decide

theorem namedNode_rowsText {label : String} (hlabel : Unquoted label) {cast : Option String}
    (hcast : ∀ c ∈ cast, Unquoted c) {rest : List Char} (hrest : Follows rest) :
    namedNode body (fieldText label (.rows cast) ++ rest) = .ok (.field label (.rows cast), rest) := by
  have hends : ∀ r, EndsWord ('(' :: ')' :: r) := fun _ => endsWord_cons (by decide)
  by_cases hl : label = "count"
  · have htext : fieldText label (.rows cast) ++ rest =
        identText "count" ++ '(' :: ')' :: (castText cast ++ rest) := by
      simp [fieldText, Field.rows, hl, identText_count]
    have hcolon : colon? ('(' :: ')' :: (castText cast ++ rest)) = none := by
      have hskip : skipLayout ('(' :: ')' :: (castText cast ++ rest)) = _ :=
        Text.skipLayout_cons_of_not (by decide)
      simp [colon?, hskip]
    rw [htext, namedNode_unlabelled (hl ▸ hlabel) (hends _) hcolon, field_count hcast none hrest, hl]
    rfl
  · have htext : fieldText label (.rows cast) ++ rest =
        identText label ++ ':' :: (identText "count" ++ '(' :: ')' :: (castText cast ++ rest)) := by
      simp [fieldText, Field.rows, hl, identText_count]
    rw [htext, namedNode_labelled hlabel (by decide) (hends _),
      field_count hcast (some label) hrest]
    rfl

theorem namedNode_fieldText {label : String} {f : Field} (hlabel : Unquoted label)
    (hf : f.WellFormed label) {rest : List Char} (hrest : Follows rest) :
    namedNode body (fieldText label f ++ rest) = .ok (.field label (f.said label), rest) := by
  cases hf with
  | rows hcast =>
    rw [Field.said_rows]
    exact namedNode_rowsText hlabel hcast hrest
  | @computed column path preCast aggregate cast hcolumn hpath hpre hcast hagg hcount =>
    have hafter := afterColumn_keysText (pathKeys path)
      (.computed label column path preCast aggregate cast) hrest
    have hrows : ¬((Field.computed label column path preCast aggregate cast).aggregate = some .count ∧
        (Field.computed label column path preCast aggregate cast).column = none) := by
      rintro ⟨ha, hnone⟩
      obtain rfl : aggregate = some .count := ha
      simp [Field.computed] at hnone
    have hunquoted : ∀ p ∈ path, Unquoted p := fun p hp => (hpath p hp).1
    unfold fieldText
    rw [if_neg hrows, Field.getD_column_computed]
    simp only [List.append_assoc]
    -- the label is written, or the text implies it
    split
    · rw [← field_columnText hunquoted hpre hcast hagg hcount (Or.inl rfl) hrest,
        ← namedNode_labelled hlabel hcolumn hafter.endsWord]
      simp only [List.append_assoc, List.cons_append, List.nil_append]
      rfl
    · rename_i hwritten
      have himplied : label = impliedLabel column (pathKeys path) :=
        Decidable.of_not_not fun hne => hwritten (Or.inl hne)
      rw [← field_columnText hunquoted hpre hcast hagg hcount
          (Or.inr ⟨rfl, himplied, fun hplain => hwritten (Or.inr hplain)⟩) hrest,
        ← namedNode_unlabelled hcolumn hafter.endsWord hafter.colon?]
      rfl

/-! ## Embeds -/

theorem bang?_append (r : List Char) : bang? ('!' :: r) = some r := by
  have hskip : skipLayout ('!' :: r) = '!' :: r := Text.skipLayout_cons_of_not (by decide)
  simp [bang?, hskip]

theorem bang?_paren (r : List Char) : bang? ('(' :: r) = none := by
  have hskip : skipLayout ('(' :: r) = '(' :: r := Text.skipLayout_cons_of_not (by decide)
  simp [bang?, hskip]

/-- **What is said of a join is read back**, but for the resource. -/
theorem modifiers_modifiersText {join : Join} (h : join.WellFormed) (r : List Char) :
    modifiers (modifiersText join ++ '(' :: r) = .ok (join.said true, '(' :: r) := by
  obtain ⟨resource, kind, hint⟩ := join
  have hends : ∀ r, EndsWord ('(' :: r) := fun _ => endsWord_cons (by decide)
  have hbang : ∀ r, EndsWord ('!' :: r) := fun _ => endsWord_cons (by decide)
  have hinner : identText "inner" = "inner".toList := by decide
  cases hint with
  | none =>
    cases kind with
    | left =>
      have htext : modifiersText ⟨resource, .left, none⟩ ++ '(' :: r = '(' :: r := rfl
      rw [htext]
      unfold modifiers
      rw [bang?_paren]
      rfl
    | inner =>
      have htext : modifiersText ⟨resource, .inner, none⟩ ++ '(' :: r =
          '!' :: (identText "inner" ++ '(' :: r) := by
        rw [hinner]
        rfl
      rw [htext]
      unfold modifiers
      simp only [bang?_append, bind, Except.bind,
        identifier_identText (show Unquoted "inner" by decide) (hends r)]
      rfl
  | some hint =>
    obtain ⟨hunquoted, hkind⟩ := h.hint hint rfl
    cases kind with
    | left =>
      have htext : modifiersText ⟨resource, .left, some hint⟩ ++ '(' :: r =
          '!' :: (identText hint ++ '(' :: r) := by
        simp [modifiersText]
      rw [htext]
      unfold modifiers
      simp only [bang?_append, bind, Except.bind, identifier_identText hunquoted (hends r), hkind,
        bang?_paren]
      rfl
    | inner =>
      have htext : modifiersText ⟨resource, .inner, some hint⟩ ++ '(' :: r =
          '!' :: (identText hint ++ '!' :: ("inner".toList ++ '(' :: r)) := by
        simp [modifiersText]
      have hword : spanWord (skipLayout ("inner".toList ++ '(' :: r)) = ("inner".toList, '(' :: r) := by
        have hskip : skipLayout ("inner".toList ++ '(' :: r) = "inner".toList ++ '(' :: r :=
          Text.skipLayout_cons_of_not (by decide)
        have hall : "inner".toList.all Text.isWordChar = true := by decide
        rw [hskip]
        exact Text.spanWord_append (List.all_eq_true.mp hall) (hends r)
      rw [htext]
      unfold modifiers
      simp only [bang?_append, bind, Except.bind, identifier_identText hunquoted (hbang _), hkind,
        hword]
      rfl

theorem modifiersText_cases (join : Join) (r : List Char) :
    (∃ r', modifiersText join ++ '(' :: r = '!' :: r') ∨
      modifiersText join ++ '(' :: r = '(' :: r := by
  obtain ⟨resource, kind, hint⟩ := join
  cases hint with
  | some hint => exact Or.inl ⟨_, by simp [modifiersText]; rfl⟩
  | none =>
    cases kind with
    | inner => exact Or.inl ⟨_, rfl⟩
    | left => exact Or.inr rfl

theorem field_embedText {join : Join} (h : join.WellFormed) {r : List Char}
    (hr : r.head? ≠ some ')') (ident : String) (label? : Option String) :
    field body ident label? (modifiersText join ++ '(' :: r) =
      (body ('(' :: r)).map fun p => (.embed (label?.getD ident)
        { join with resource := label?.map fun _ => ident } false p.1, p.2) := by
  have hembed : embedField body ident label? (modifiersText join ++ '(' :: r) =
      (body ('(' :: r)).map fun p => (.embed (label?.getD ident)
        { join with resource := label?.map fun _ => ident } false p.1, p.2) := by
    unfold embedField
    simp only [modifiers_modifiersText h, bind, Except.bind]
    cases body ('(' :: r) with
    | error e => rfl
    | ok p => cases label? <;> rfl
  rw [← hembed]
  obtain ⟨r', htext⟩ | htext := modifiersText_cases join r
  · rw [htext]
    unfold field
    rw [Text.skipLayout_cons_of_not (by decide)]
    simp [countFollows]
  · rw [htext]
    unfold field
    rw [Text.skipLayout_cons_of_not (by decide)]
    cases r with
    | nil => simp [countFollows]
    | cons c r =>
      have hc : c ≠ ')' := fun hc => hr (by simp [hc])
      simp [countFollows, hc]

theorem after_embedName (join : Join) (r : List Char) :
    EndsWord (modifiersText join ++ '(' :: r) ∧ colon? (modifiersText join ++ '(' :: r) = none := by
  obtain ⟨r', htext⟩ | htext := modifiersText_cases join r
  · have hskip : skipLayout ('!' :: r') = '!' :: r' := Text.skipLayout_cons_of_not (by decide)
    rw [htext]
    exact ⟨endsWord_cons (by decide), by simp [colon?, hskip]⟩
  · have hskip : skipLayout ('(' :: r) = '(' :: r := Text.skipLayout_cons_of_not (by decide)
    rw [htext]
    exact ⟨endsWord_cons (by decide), by simp [colon?, hskip]⟩

/-- **The label, the resource and the join of an embed are read back**, with what its list is read as. -/
theorem node_embedHead {label : String} {join : Join} {spread : Bool} {r : List Char}
    (hlabel : Unquoted label) (hjoin : join.WellFormed) (hr : r.head? ≠ some ')') :
    node body (embedHead label spread join ++ '(' :: r) =
      (body ('(' :: r)).map fun p => (.embed label (join.said spread) spread p.1, p.2) := by
  obtain ⟨hends, hcolon⟩ := after_embedName join r
  cases spread with
  | true =>
    have htext : embedHead label true join ++ '(' :: r =
        '.' :: '.' :: '.' :: (identText label ++ (modifiersText join ++ '(' :: r)) := by
      simp [embedHead]
    have hspread : node body (embedHead label true join ++ '(' :: r) =
        spreadNode body (identText label ++ (modifiersText join ++ '(' :: r)) := by
      rw [htext]
      unfold node
      rw [Text.skipLayout_cons_of_not (by decide)]
      rfl
    rw [hspread]
    unfold spreadNode
    simp only [identifier_identText hlabel hends, bind, Except.bind, modifiers_modifiersText hjoin]
    cases body ('(' :: r) <;> rfl
  | false =>
    obtain ⟨resource, kind, hint⟩ := join
    cases resource with
    | none =>
      have htext : embedHead label false ⟨none, kind, hint⟩ ++ '(' :: r =
          identText label ++ (modifiersText ⟨none, kind, hint⟩ ++ '(' :: r) := by
        simp [embedHead]
      rw [htext, node_identText, namedNode_unlabelled hlabel hends hcolon,
        field_embedText hjoin hr]
      rfl
    | some resource =>
      have htext : embedHead label false ⟨some resource, kind, hint⟩ ++ '(' :: r =
          identText label ++ ':' :: (identText resource ++
            (modifiersText ⟨some resource, kind, hint⟩ ++ '(' :: r)) := by
        simp [embedHead]
      rw [htext, node_identText, namedNode_labelled hlabel (hjoin.resource resource rfl) hends,
        field_embedText hjoin hr]
      rfl

theorem exists_fieldText (label : String) (f : Field) :
    ∃ name w, fieldText label f = identText name ++ w := by
  unfold fieldText
  split
  · split
    · exact ⟨label, _, by simp only [List.append_assoc]; rfl⟩
    · refine ⟨"count", '(' :: ')' :: castText f.cast, ?_⟩
      rw [identText_count]
      rfl
  · simp only
    split
    · exact ⟨label, _, by simp only [List.append_assoc]; rfl⟩
    · exact ⟨f.column.getD label, _, by simp only [List.append_assoc, List.nil_append]; rfl⟩

/-- **A column is read back**, unless its name makes it the count of all rows. -/
theorem field_columnOnly (name : String) {rest : List Char} (hrest : Follows rest) :
    field body name none rest =
      .ok (if name = "count" then .field name (.rows none) else .column name, rest) := by
  by_cases hname : name = "count"
  · subst hname
    have hnone : ∀ c ∈ (none : Option String), Unquoted c := by simp
    have hcount := countNode_castText hnone none hrest
    unfold field
    rw [(AfterColumn.follows hrest).skipLayout]
    simp only [hrest.countFollows, and_self, if_true]
    exact hcount
  · obtain ⟨-, hcolon, harrow, hagg⟩ := hrest.no_mark
    rw [field_of_afterColumn (.follows hrest) fun h => hname h.1, if_neg hname]
    unfold columnField
    simp only [path?, harrow, tail, cast?, hcolon, hagg, bind, Except.bind, pure, Except.pure]
    rfl

theorem exists_cons_itemText (join : JoinMap) (i : Item α) :
    ∃ c r, itemText join i = c :: r ∧ Text.isLayout c = false ∧ c ≠ ')' := by
  have hident : ∀ (name : String) (w : List Char),
      ∃ c r, identText name ++ w = c :: r ∧ Text.isLayout c = false ∧ c ≠ ')' := by
    intro name w
    obtain ⟨c, r, htext, hc⟩ := exists_cons_identText name
    exact ⟨c, r ++ w, by rw [htext]; rfl, isLayout_of_identStart hc,
      ne_of_identStart hc (by decide) (by decide)⟩
  cases i with
  | star => exact ⟨'*', [], by rw [itemText], by decide, by decide⟩
  | column name => simpa [itemText] using hident name []
  | field label f =>
    obtain ⟨name, w, htext⟩ := exists_fieldText label f
    rw [itemText, htext]
    exact hident name w
  | embed label items note spread inner =>
    rw [itemText]
    unfold embedHead
    cases spread with
    | true => exact ⟨'.', _, rfl, by decide, by decide⟩
    | false =>
      simp only [Bool.false_eq_true, if_false]
      cases (joinOf join label).resource with
      | none => simpa only [List.append_assoc] using hident label _
      | some resource => simpa only [List.append_assoc] using hident label _

theorem itemsTailText_eq_flatMap (join : JoinMap) (items : List (Item α)) :
    itemsTailText join items = items.flatMap fun i => [','] ++ itemText join i := by
  induction items with
  | nil => rw [itemsTailText]; rfl
  | cons i is ih => rw [itemsTailText, ih]; rfl

theorem exists_cons_itemsText (join : JoinMap) {items : List (Item α)} (hne : items ≠ [])
    (rest : List Char) :
    ∃ c r, itemsText join items ++ rest = c :: r ∧ Text.isLayout c = false ∧ c ≠ ')' := by
  obtain ⟨i, is, rfl⟩ := List.exists_cons_of_ne_nil hne
  obtain ⟨c, r, htext, hc⟩ := exists_cons_itemText join i
  exact ⟨c, r ++ itemsTailText join is ++ rest, by simp [itemsText, htext], hc⟩

theorem head?_itemsText_ne (join : JoinMap) {items : List (Item α)} (hne : items ≠ [])
    (rest : List Char) : (itemsText join items ++ rest).head? ≠ some ')' := by
  obtain ⟨c, r, htext, -, hparen⟩ := exists_cons_itemsText join hne rest
  rw [htext]
  simpa using hparen

theorem itemText_embed (join : JoinMap) (label : String) (items : List (Item α)) (note : α)
    (spread : Bool) (inner : Option JoinMap) (rest : List Char) :
    itemText join (.embed label items note spread inner) ++ rest =
      embedHead label spread (joinOf join label) ++
        '(' :: (itemsText (inner.getD []) items ++ ')' :: rest) := by
  rw [itemText]
  simp

theorem query_itemsText {join : JoinMap} {items : List (Item α)} (hshrinks : Text.Shrinks (node body))
    (hne : items ≠ [])
    (hread : ∀ i ∈ items, ∀ rest, Follows rest →
      node body (itemText join i ++ rest) = .ok (i.said join, rest))
    {rest : List Char} (hrest : Follows rest) (hcomma : comma? rest = none) :
    query body (itemsText join items ++ rest) = .ok (saidAll join items, rest) := by
  obtain ⟨c, r, htext, hc, hparen⟩ := exists_cons_itemsText join hne rest
  have hskip : skipLayout (itemsText join items ++ rest) = c :: r := by
    rw [htext, Text.skipLayout_cons_of_not hc]
  rw [query_eq_separated hskip hparen, ← htext]
  obtain ⟨i, is, rfl⟩ := List.exists_cons_of_ne_nil hne
  have hsep : ∀ j ∈ is, ∀ rest, comma? ([','] ++ (itemText join j ++ rest)) =
      some (itemText join j ++ rest) := by
    intro j _ rest
    have hskip : skipLayout (',' :: (itemText join j ++ rest)) = _ :=
      Text.skipLayout_cons_of_not (by decide)
    simp [comma?, hskip]
  rw [itemsText, itemsTailText_eq_flatMap, List.append_assoc,
    Text.separated_append Follows (Item.said join) hshrinks takes_comma?.consumes
      (fun r => follows_comma r) hsep hread hrest hcomma, saidAll_eq_map]

theorem bodyAt_paren {join : JoinMap} {items : List (Item α)} (hne : items ≠ []) (n : Nat)
    (rest : List Char) :
    bodyAt (n + 1) ('(' :: (itemsText join items ++ ')' :: rest)) =
      (query (bodyAt n) (itemsText join items ++ ')' :: rest)) >>=
        fun p => (closeParen p.2).map fun r => (p.1, r) := by
  obtain ⟨c, r, htext, hc, hparen⟩ := exists_cons_itemsText join hne (')' :: rest)
  have hskip : skipLayout (itemsText join items ++ ')' :: rest) = c :: r := by
    rw [htext, Text.skipLayout_cons_of_not hc]
  have hopen : openParen ('(' :: (itemsText join items ++ ')' :: rest)) =
      .ok (itemsText join items ++ ')' :: rest) := by
    unfold openParen
    rw [Text.skipLayout_cons_of_not (by decide)]
    rfl
  rw [bodyAt_eq, hopen]
  exact if_neg (by simpa [hskip] using hparen)

theorem bodyAt_itemsText {join : JoinMap} {items : List (Item α)} {n : Nat} (hne : items ≠ [])
    (hread : ∀ i ∈ items, ∀ rest, Follows rest →
      node (bodyAt n) (itemText join i ++ rest) = .ok (i.said join, rest)) (rest : List Char) :
    bodyAt (n + 1) ('(' :: (itemsText join items ++ ')' :: rest)) =
      .ok (saidAll join items, rest) := by
  have hclose : closeParen (')' :: rest) = .ok rest := by
    unfold closeParen
    rw [Text.skipLayout_cons_of_not (by decide)]
    rfl
  have hcomma : comma? (')' :: rest) = none := by
    unfold comma?
    rw [Text.skipLayout_cons_of_not (by decide)]
    simp
  rw [bodyAt_paren hne, query_itemsText (yields_node (yields_bodyAt n)).shrinks hne hread
    (follows_paren rest) hcomma]
  simp only [bind, Except.bind, hclose, Except.map]

/-- **An entry is read back**, if its embeds are not too deep. -/
theorem node_itemText {join : JoinMap} {i : Item α} (h : i.WellFormed join) {n : Nat}
    (hdepth : i.depth ≤ n) {rest : List Char} (hrest : Follows rest) :
    node (bodyAt n) (itemText join i ++ rest) = .ok (i.said join, rest) := by
  induction h generalizing n rest with
  | star =>
    rw [itemText, Item.said]
    unfold node
    rw [List.singleton_append, Text.skipLayout_cons_of_not (by decide)]
    rfl
  | @column join name hname =>
    rw [itemText, node_identText,
      namedNode_unlabelled hname hrest.endsWord hrest.no_mark.1, Item.said]
    exact field_columnOnly name hrest
  | @field join label f hlabel hf =>
    obtain ⟨name, w, htext⟩ := exists_fieldText label f
    have hnamed : namedNode (bodyAt n) (fieldText label f ++ rest) = _ :=
      namedNode_fieldText hlabel hf hrest
    rw [itemText, Item.said]
    rw [htext, List.append_assoc] at hnamed ⊢
    rw [node_identText, hnamed]
  | @embed join label items note spread inner hlabel hjoin hne hitems ih =>
    rw [Item.depth] at hdepth
    obtain ⟨k, rfl⟩ : ∃ k, n = k + 1 := ⟨n - 1, by omega⟩
    have hinner := depthOf_le.mp (show depthOf items ≤ k by omega)
    have hbody := bodyAt_itemsText hne (fun i hi r hr => ih i hi (hinner i hi) hr) rest
    rw [itemText_embed, Item.said,
      node_embedHead hlabel hjoin (head?_itemsText_ne (inner.getD []) hne (')' :: rest)), hbody]
    rfl

/-! ## Whole lists -/

theorem readAll_itemsText {join : JoinMap} {items : List (Item α)}
    (h : ∀ i ∈ items, i.WellFormed join) (hdepth : depthOf items ≤ maxNesting) :
    readAll (itemsText join items) = .ok (saidAll join items) := by
  have hquery : query (bodyAt maxNesting) (itemsText join items) = .ok (saidAll join items, []) := by
    by_cases hne : items = []
    · subst hne
      rw [itemsText, saidAll]
      rfl
    · have hread := query_itemsText (yields_node (yields_bodyAt maxNesting)).shrinks hne
        (fun i hi _ hr => node_itemText (h i hi) (depthOf_le.mp hdepth i hi) hr) follows_nil rfl
      rwa [List.append_nil] at hread
  exact readAll_eq_ok.mpr ⟨[], hquery, by simp⟩

/-- **A list that is written says its entries**, if its embeds are not too deep. -/
theorem parse_render {join : JoinMap} {items : List (Item α)} (h : ∀ i ∈ items, i.WellFormed join)
    (hdepth : depthOf items ≤ maxNesting) :
    parse (some (render items join)) = .ok (.ofNodes (saidAll join items)) := by
  simp only [parse, nodesOf, render, Option.getD_some, String.toList_ofList,
    readAll_itemsText h hdepth, Except.map]

end ResourceQuery.Select
