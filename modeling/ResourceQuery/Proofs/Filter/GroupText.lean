import ResourceQuery.Proofs.Filter.LogicTree
import ResourceQuery.Proofs.Readers
import ResourceQuery.Proofs.Refusal

/-! # Groups, written and read

The text of a tree of groups is read as it was meant, if it may be as deep as it is. The reader counts the
parentheses inside a condition by itself (`conditionText_append`) and goes down one level for each group;
what it returns at a level is decided by the levels below (`itemsAt_listText`). -/

namespace ResourceQuery.LogicTree

open Text (skipLayout)

/-! ## Conditions -/

/-- What follows an expression: a comma or a closing parenthesis. -/
def Follows (rest : List Char) : Prop := ∃ c r, rest = c :: r ∧ (c = ',' ∨ c = ')')

theorem conditionText_cons (depth : Nat) (c : Char) (cs : List Char) :
    Expression.conditionText depth (c :: cs) =
      if c = '(' then (Expression.conditionText (depth + 1) cs).map (Prod.map (c :: ·) id)
      else if c = ')' then
        match depth with
        | 0 => some ([], c :: cs)
        | depth + 1 => (Expression.conditionText depth cs).map (Prod.map (c :: ·) id)
      else if c = ',' ∧ depth = 0 then some ([], c :: cs)
      else (Expression.conditionText depth cs).map (Prod.map (c :: ·) id) := by
  cases depth <;> rfl

/-- **A condition ends where it was meant to.** -/
theorem conditionText_append {cs : List Char} {depth : Nat} (h : enclosed depth cs)
    {rest : List Char} (hrest : Follows rest) :
    Expression.conditionText depth (cs ++ rest) = some (cs, rest) := by
  induction cs generalizing depth with
  | nil =>
    obtain rfl : depth = 0 := by simpa [enclosed] using h
    obtain ⟨c, r, rfl, hc⟩ := hrest
    rcases hc with rfl | rfl <;> simp [Expression.conditionText]
  | cons c cs ih =>
    rw [List.cons_append]
    by_cases hopen : c = '('
    · rw [enclosed, if_pos hopen] at h
      rw [conditionText_cons, if_pos hopen, ih h]
      rfl
    · by_cases hclose : c = ')'
      · rw [enclosed, if_neg hopen, if_pos hclose, Bool.and_eq_true, decide_eq_true_iff] at h
        obtain ⟨hdepth, h⟩ := h
        rw [conditionText_cons, if_neg hopen, if_pos hclose]
        cases depth with
        | zero => exact absurd rfl hdepth
        | succ d =>
          rw [Nat.add_sub_cancel] at h
          simp only [ih h]
          rfl
      · rw [enclosed, if_neg hopen, if_neg hclose, Bool.and_eq_true, Bool.or_eq_true,
          decide_eq_true_iff, decide_eq_true_iff] at h
        obtain ⟨hcomma, h⟩ := h
        have hends : ¬(c = ',' ∧ depth = 0) := by
          rintro ⟨hc, hdepth⟩
          exact hcomma.elim (fun hne => hne hc) fun hne => hne hdepth
        rw [conditionText_cons, if_neg hopen, if_neg hclose, if_neg hends, ih h]
        rfl

theorem prefix_of_append {p cs rest : List Char} (h : p <+: cs ++ rest)
    (hrest : ∀ c ∈ rest.head?, c ∉ p) : p <+: cs := by
  rcases List.prefix_or_prefix_of_prefix h (List.prefix_append cs rest) with hp | ⟨s, rfl⟩
  · exact hp
  · cases s with
    | nil => simp
    | cons c s =>
      obtain ⟨w, hw⟩ := (List.prefix_append_right_inj cs).mp h
      have hhead : c ∈ rest.head? := by rw [← hw]; rfl
      exact absurd (by simp) (hrest c hhead)

theorem groupStart?_append_groupWord (logic : Logic) (negated : Bool) (r : List Char) :
    Expression.groupStart? ((groupWord logic negated).toList ++ '(' :: r) =
      some ((logic, negated), '(' :: r) := by
  cases logic <;> cases negated <;> rfl

theorem eq_append_of_groupStart? {cs r : List Char} {logic : Logic} {negated : Bool}
    (h : Expression.groupStart? cs = some ((logic, negated), r)) :
    cs = (groupWord logic negated).toList ++ r ∧ ∃ r', r = '(' :: r' := by
  unfold Expression.groupStart? at h
  cases hnot : Text.dropLead? FilterValue.notMark cs with
  | some s =>
    obtain rfl := Text.dropLead?_eq_some.mp hnot
    simp only [hnot] at h
    split at h
    · obtain ⟨⟨rfl, rfl⟩, rfl⟩ := by simpa only [Option.some.injEq, Prod.mk.injEq] using h
      exact ⟨rfl, _, rfl⟩
    · obtain ⟨⟨rfl, rfl⟩, rfl⟩ := by simpa only [Option.some.injEq, Prod.mk.injEq] using h
      exact ⟨rfl, _, rfl⟩
    · simp at h
  | none =>
    simp only [hnot] at h
    split at h
    · obtain ⟨⟨rfl, rfl⟩, rfl⟩ := by simpa only [Option.some.injEq, Prod.mk.injEq] using h
      exact ⟨rfl, _, rfl⟩
    · obtain ⟨⟨rfl, rfl⟩, rfl⟩ := by simpa only [Option.some.injEq, Prod.mk.injEq] using h
      exact ⟨rfl, _, rfl⟩
    · simp at h

/-- **A condition is no group**, wherever it stands. -/
theorem groupStart?_append {cs rest : List Char} (h : ∀ m ∈ groupMarks, ¬ m <+: cs)
    (hrest : Follows rest) : Expression.groupStart? (cs ++ rest) = none := by
  cases hstart : Expression.groupStart? (cs ++ rest) with
  | none => rfl
  | some p =>
    obtain ⟨⟨logic, negated⟩, s⟩ := p
    obtain ⟨heq, s', rfl⟩ := eq_append_of_groupStart? hstart
    have hmark : (groupWord logic negated).toList ++ ['('] ∈ groupMarks := by
      cases logic <;> cases negated <;> decide
    have hmarks : ∀ m ∈ groupMarks, ',' ∉ m ∧ ')' ∉ m := by decide
    have hprefix : (groupWord logic negated).toList ++ ['('] <+: cs ++ rest := by
      rw [heq]
      exact ⟨s', by simp⟩
    refine absurd (prefix_of_append hprefix fun c hc => ?_) (h _ hmark)
    obtain ⟨d, r, rfl, hd⟩ := hrest
    obtain rfl : d = c := by simpa using hc
    rcases hd with rfl | rfl
    · exact (hmarks _ hmark).1
    · exact (hmarks _ hmark).2

/-! ## What is left -/

theorem takes_comma? : Text.Takes Expression.comma? := by
  intro cs r h
  unfold Expression.comma? at h
  split at h
  · obtain rfl := Option.some.inj h
    exact ⟨_, List.suffix_refl _⟩
  · simp at h

theorem eq_append_of_conditionText {cs t r : List Char} {depth : Nat}
    (h : Expression.conditionText depth cs = some (t, r)) : cs = t ++ r := by
  induction cs generalizing depth t with
  | nil => cases depth <;> simp_all [Expression.conditionText]
  | cons c cs ih =>
    have hmap : ∀ {depth : Nat}, (Expression.conditionText depth cs).map (Prod.map (c :: ·) id) =
        some (t, r) → c :: cs = t ++ r := by
      intro depth h
      obtain ⟨⟨t', r'⟩, hread, heq⟩ := Option.map_eq_some_iff.mp h
      simp only [Prod.map_apply, id_eq, Prod.mk.injEq] at heq
      obtain ⟨rfl, rfl⟩ := heq
      rw [ih hread]
      rfl
    rw [conditionText_cons] at h
    split at h
    · exact hmap h
    · split at h
      · cases depth with
        | zero => simp_all
        | succ d => exact hmap h
      · split at h
        · simp_all
        · exact hmap h

theorem yields_read {items : Text.Reader Expression.Fault (List Expression)}
    (hitems : Text.Yields items fun _ => True) :
    Text.Yields (Expression.read items) fun _ => True := by
  intro cs e r h
  have hskip := Text.skipLayout_suffix cs
  unfold Expression.read at h
  split at h
  · rename_i logic negated s hstart
    obtain ⟨heq, -⟩ := eq_append_of_groupStart? hstart
    have hs : s <:+ skipLayout cs := heq ▸ List.suffix_append _ _
    split at h
    · simp at h
    · rename_i es r' hread
      obtain ⟨-, rfl⟩ := Refusal.ok_pair_inj h
      exact ⟨trivial, (Text.skipLayout_suffix r').trans ((hitems hread).2.trans (hs.trans hskip))⟩
  · split at h
    · simp at h
    · rename_i t r' hread
      obtain ⟨-, rfl⟩ := Refusal.ok_pair_inj h
      have heq := eq_append_of_conditionText hread
      exact ⟨trivial, (heq ▸ List.suffix_append t r').trans hskip⟩

theorem yields_itemsAt (n : Nat) : Text.Yields (Expression.itemsAt n) fun _ => True := by
  induction n with
  | zero =>
    intro cs es r h
    simp [Expression.itemsAt] at h
  | succ n ih =>
    intro cs es r h
    unfold Expression.itemsAt at h
    split at h
    · split at h
      · simp at h
      · rename_i es' r' hread
        obtain ⟨-, rfl⟩ := Refusal.ok_pair_inj h
        obtain ⟨-, hsuffix⟩ := Text.yields_separated (yields_read ih) takes_comma? hread
        exact ⟨trivial, (List.suffix_cons _ _).trans (hsuffix.trans (List.suffix_cons _ _))⟩
      · simp at h
    · simp at h

/-! ## What a text says -/

/-- An empty list says one empty condition. -/
def orEmpty : List Expression → List Expression
  | [] => [.condition []]
  | e :: es => e :: es

mutual
/-- **What the text of a tree says.** -/
def expression : LogicTree → Expression
  | leaf negated column value => .condition (leafText negated column value)
  | group logic negated items => .group logic negated (orEmpty (expressions items))

/-- What the texts of trees say. -/
def expressions : List LogicTree → List Expression
  | [] => []
  | t :: ts => expression t :: expressions ts
end

/-- What is read of a tree, if groups may be `n` levels deep. -/
def said (n : Nat) (t : LogicTree) : Except Expression.Fault Expression :=
  if t.levels ≤ n then .ok t.expression else .error .tooDeep

/-- What is read of trees, if groups may be `n` levels deep. -/
def saidAll (n : Nat) (items : List LogicTree) : Except Expression.Fault (List Expression) :=
  if levelsOf items ≤ n then .ok (expressions items) else .error .tooDeep

/-- What is read of a list in parentheses, which are a level of their own. -/
def listed (n : Nat) (items : List LogicTree) : Except Expression.Fault (List Expression) :=
  if levelsOf items < n then .ok (orEmpty (expressions items)) else .error .tooDeep

theorem said_group (n : Nat) (logic : Logic) (negated : Bool) (items : List LogicTree) :
    said n (group logic negated items) = (listed n items).map (.group logic negated) := by
  unfold said listed
  rw [levels, expression]
  by_cases h : levelsOf items + 1 ≤ n
  · rw [if_pos h, if_pos (show levelsOf items < n from h)]
    rfl
  · rw [if_neg h, if_neg (show ¬ levelsOf items < n from h)]
    rfl

theorem listed_succ (n : Nat) (items : List LogicTree) :
    listed (n + 1) items = (saidAll n items).map orEmpty := by
  unfold listed saidAll
  by_cases h : levelsOf items ≤ n
  · rw [if_pos h, if_pos (Nat.lt_succ_of_le h)]
    rfl
  · rw [if_neg h, if_neg (show ¬ levelsOf items < n + 1 by omega)]
    rfl

theorem Follows.skipLayout {rest : List Char} (h : Follows rest) : skipLayout rest = rest := by
  obtain ⟨c, r, rfl, hc⟩ := h
  rcases hc with rfl | rfl <;> exact Text.skipLayout_cons_of_not (by decide)

theorem leafText_ne_nil (negated : Bool) (column value : String) :
    leafText negated column value ≠ [] := by
  intro h
  have hmem : '.' ∈ leafText negated column value := by simp [leafText]
  rw [h] at hmem
  simp at hmem

theorem read_leafText {negated : Bool} {column value : String}
    (h : (leaf negated column value).WellFormed)
    {items : Text.Reader Expression.Fault (List Expression)} {rest : List Char}
    (hrest : Follows rest) :
    Expression.read items (leafText negated column value ++ rest) =
      .ok (.condition (leafText negated column value), rest) := by
  cases h with
  | leaf hcolumn htrimmed henclosed hgroup hnegated =>
    have hskip : skipLayout (leafText negated column value ++ rest) =
        leafText negated column value ++ rest := by
      obtain ⟨c, cs, htext⟩ := List.exists_cons_of_ne_nil (leafText_ne_nil negated column value)
      have hblank := htrimmed.1 c (by rw [htext]; rfl)
      rw [htext, List.cons_append]
      refine Text.skipLayout_cons_of_not ?_
      cases hlayout : Text.isLayout c with
      | false => rfl
      | true =>
        rw [Text.isBlank_of_isLayout hlayout] at hblank
        exact absurd hblank (by simp)
    unfold Expression.read
    rw [hskip, groupStart?_append hgroup hrest]
    simp only [conditionText_append henclosed hrest, Text.trim_eq_self htrimmed]

theorem read_groupText (logic : Logic) (negated : Bool) (ts : List LogicTree)
    {items : Text.Reader Expression.Fault (List Expression)} {rest : List Char}
    {es : Except Expression.Fault (List Expression)} (hrest : Follows rest)
    (hitems : items (listText ts ++ rest) = es.map fun es => (es, rest)) :
    Expression.read items (text (group logic negated ts) ++ rest) =
      (es.map (Expression.group logic negated)).map fun e => (e, rest) := by
  have htext : text (group logic negated ts) ++ rest =
      (groupWord logic negated).toList ++ '(' :: (Text.joinWith [','] (texts ts) ++ ')' :: rest) := by
    simp [text]
  have hlist : '(' :: (Text.joinWith [','] (texts ts) ++ ')' :: rest) = listText ts ++ rest := by
    simp [listText]
  have hskip : skipLayout (text (group logic negated ts) ++ rest) =
      text (group logic negated ts) ++ rest := by
    rw [htext]
    cases logic <;> cases negated <;> exact Text.skipLayout_cons_of_not (by decide)
  unfold Expression.read
  rw [hskip, htext, groupStart?_append_groupWord, hlist]
  simp only [hitems]
  cases es with
  | error e => rfl
  | ok es => simp only [Except.map, hrest.skipLayout]

theorem mapM_said (n : Nat) (items : List LogicTree) : items.mapM (said n) = saidAll n items := by
  induction items with
  | nil => rfl
  | cons t ts ih =>
    rw [List.mapM_cons, ih]
    unfold said saidAll
    rw [levelsOf, expressions]
    by_cases ht : t.levels ≤ n
    · by_cases hts : levelsOf ts ≤ n
      · rw [if_pos ht, if_pos hts, if_pos (by omega)]
        rfl
      · rw [if_pos ht, if_neg hts, if_neg (by omega)]
        rfl
    · rw [if_neg ht, if_neg (show ¬ max t.levels (levelsOf ts) ≤ n by omega)]
      rfl

theorem joinWith_texts (t : LogicTree) (ts : List LogicTree) :
    Text.joinWith [','] (texts (t :: ts)) = text t ++ ts.flatMap fun t => [','] ++ text t := by
  induction ts generalizing t with
  | nil => simp [texts, Text.joinWith]
  | cons u ts ih =>
    rw [texts, Text.joinWith_cons_of_ne_nil _ _ (by simp [texts]), ih u]
    simp

theorem follows_comma (r : List Char) : Follows (',' :: r) := ⟨',', r, rfl, Or.inl rfl⟩

theorem follows_paren (r : List Char) : Follows (')' :: r) := ⟨')', r, rfl, Or.inr rfl⟩

/-- **A list in parentheses is read back**, unless its groups are too deep. -/
theorem itemsAt_listText (n : Nat) {items : List LogicTree} (h : ∀ t ∈ items, t.WellFormed)
    (rest : List Char) :
    Expression.itemsAt n (listText items ++ rest) =
      (listed n items).map fun es => (es, rest) := by
  induction n generalizing items rest with
  | zero => rfl
  | succ n ih =>
    have hread : ∀ t ∈ items, ∀ rest, Follows rest →
        Expression.read (Expression.itemsAt n) (text t ++ rest) =
          (said n t).map fun e => (e, rest) := by
      intro t ht rest hrest
      have hwf := h t ht
      cases t with
      | leaf negated column value =>
        rw [text, read_leafText hwf hrest]
        rfl
      | group logic negated ts =>
        cases hwf with
        | group hitems =>
          rw [read_groupText logic negated ts hrest (ih hitems rest), said_group]
    have hlist : Expression.readList (Expression.itemsAt n)
        (Text.joinWith [','] (texts items) ++ ')' :: rest) =
          ((saidAll n items).map orEmpty).map fun es => (es, ')' :: rest) := by
      have hshrinks := (yields_read (yields_itemsAt n)).shrinks
      unfold Expression.readList
      cases items with
      | nil =>
        rw [texts, Text.separated_eq hshrinks takes_comma?.consumes]
        rfl
      | cons t ts =>
        rw [joinWith_texts, List.append_assoc,
          Text.separated_append_mapM Follows (said n) hshrinks takes_comma?.consumes
            (fun r => follows_comma r) (fun _ _ _ => rfl) hread (follows_paren rest) rfl,
          mapM_said]
        unfold saidAll
        split
        · rw [expressions]
          rfl
        · rfl
    have htext : listText items ++ rest =
        '(' :: (Text.joinWith [','] (texts items) ++ ')' :: rest) := by
      simp [listText]
    rw [htext]
    unfold Expression.itemsAt
    rw [listed_succ]
    simp only [hlist]
    cases saidAll n items <;> rfl

end ResourceQuery.LogicTree
