import ResourceQuery.Proofs.Select.Composed
import ResourceQuery.Proofs.Select.Said
import ResourceQuery.Proofs.Select.Tokens

/-! # Select lists, spaced

White space between the tokens of a select list says nothing (`parse_spaced`). The text of a list that was
read is cut into tokens; with layout before any of these, and at the end, it says what it said.

Every reader of the grammar respects that texts are `Apart`: it stops between two tokens, or between the
parentheses of the count of all rows where these are the empty list of an embed. What decides between a column,
an embed and the count of all rows is the token that stands first in both texts (`respects_field`). The written
text of an entry is cut if what follows it is, and ends a word (`cuttable_itemText`). -/

namespace ResourceQuery.Select

open Text (Reader skipLayout spanWord Respects Keeps)

variable {t : Token} {r r' cs cs' : List Char}

/-! ## Pieces -/

theorem respects_cast? : Respects Apart cast? :=
  .option keeps_doubleColon? (.ok none) (respects_identifier.map some)

theorem respects_path? : Respects Apart path? :=
  .option keeps_arrow? (.ok none)
    ((Respects.separated yields_identifier.shrinks takes_arrow?.consumes respects_identifier
      keeps_arrow?).map some)

theorem aggregate?_apart (h : Apart cs cs') : (aggregate? cs = none ∧ aggregate? cs' = none) ∨
    ∃ a s s', aggregate? cs = some (a, s) ∧ aggregate? cs' = some (a, s') ∧ Apart s s' := by
  have hskip : aggregate? (skipLayout cs') = aggregate? cs' := by
    rw [aggregate?, aggregate?, Text.skipLayout_skipLayout]
  obtain ⟨rfl, hend⟩ | ⟨t, r, r', rfl, hfirst, hwhole, hwhole', hrest⟩ := h.cases
  · rw [← hskip, hend]
    exact .inl ⟨rfl, rfl⟩
  · rw [← hskip, hfirst, aggregate?_text hwhole, aggregate?_text hwhole']
    cases t with
    | aggregate a => exact .inr ⟨a, r, r', rfl, rfl, hrest⟩
    | _ => exact .inl ⟨rfl, rfl⟩

theorem respects_tail : Respects Apart tail := by
  refine respects_cast?.bind fun first => ?_
  intro cs cs' p r hapart h
  obtain ⟨hnone, hnone'⟩ | ⟨a, s, s', hcall, hcall', hs⟩ := aggregate?_apart hapart
  · simp only [hnone] at h
    simp only [hnone']
    obtain ⟨rfl, rfl⟩ := Refusal.ok_pair_inj h
    exact ⟨cs', rfl, hapart⟩
  · simp only [hcall] at h
    simp only [hcall']
    exact (respects_cast?.bind fun last => .ok (first, some a, last)) hs h

theorem kind_apart (h : Apart cs cs') {kind : JoinKind}
    (hkind : JoinKind.ofWord? (String.ofList (spanWord (skipLayout cs)).1) = some kind) :
    JoinKind.ofWord? (String.ofList (spanWord (skipLayout cs')).1) = some kind ∧
      Apart (spanWord (skipLayout cs)).2 (spanWord (skipLayout cs')).2 := by
  have hempty : JoinKind.ofWord? (String.ofList []) = none := by decide
  obtain ⟨rfl, -⟩ | ⟨t, r, r', rfl, hfirst, hwhole, hwhole', hrest⟩ := h.cases
  · exact absurd hkind (by rw [show (spanWord (skipLayout [])).1 = [] from rfl, hempty]; simp)
  · rw [skipLayout_text hwhole, spanWord_text hwhole] at hkind ⊢
    rw [hfirst, spanWord_text hwhole']
    cases t with
    | word w => exact ⟨hkind, hrest⟩
    | _ => exact absurd hkind (by simp [hempty])

theorem respects_modifiers : Respects Apart modifiers := by
  refine .option keeps_bang? (.ok Join.plain) (respects_identifier.bind fun word => ?_)
  cases hword : JoinKind.ofWord? word with
  | some kind =>
    simp only [hword]
    exact .ok _
  | none =>
    simp only [hword]
    refine .option keeps_bang? (.ok _) fun cs cs' join r hapart h => ?_
    cases hkind : JoinKind.ofWord? (String.ofList (spanWord (skipLayout cs)).1) with
    | none => simp [hkind] at h
    | some kind =>
      obtain ⟨hkind', hrest⟩ := kind_apart hapart hkind
      simp only [hkind] at h
      simp only [hkind']
      obtain ⟨rfl, rfl⟩ := Refusal.ok_pair_inj h
      exact ⟨_, rfl, hrest⟩

/-! ## Entries -/

theorem head?_apart (h : Apart cs cs') : (Text.skipLayout cs').head? = cs.head? := by
  obtain ⟨rfl, hend⟩ | ⟨t, r, r', rfl, hfirst, hwhole, -, -⟩ := h.cases
  · rw [hend]
  · obtain ⟨c, w, htext, -⟩ := exists_cons_text hwhole
    rw [hfirst, htext]
    rfl

theorem countFollows_apart (h : Apart cs cs') : countFollows (skipLayout cs') = countFollows cs := by
  obtain ⟨rfl, hend⟩ | ⟨t, r, r', rfl, hfirst, hwhole, hwhole', -⟩ := h.cases
  · rw [hend]
  · rw [hfirst, countFollows_text hwhole, countFollows_text hwhole']

theorem countNode_text (h : t.WholeBefore r) (label : Option String) :
    countNode label (t.text ++ r) = (cast? (if t = .parens then r else t.text ++ r)).map fun p =>
      (.field (label.getD "count") (.rows p.1), p.2) := by
  have hcount : ∀ cs, (cast? cs).map (fun p => (Node.field (label.getD "count") (.rows p.1), p.2)) =
      cast? cs >>= fun p => .ok (Node.field (label.getD "count") (.rows p.1), p.2) := by
    intro cs
    cases cast? cs <;> rfl
  rw [hcount]
  cases t with
  | word w =>
    obtain ⟨c, w', rfl, hc⟩ := exists_cons_word h
    unfold countNode
    split
    · rename_i heq
      exact absurd (List.cons.inj heq).1 (hc '(' (by decide))
    · rfl
  | openParen =>
    unfold countNode
    split
    · rename_i s heq
      have hr : r = ')' :: s := (List.cons.inj heq).2
      exact absurd (by rw [hr]; rfl) h
    · rfl
  | _ => rfl

theorem countNode_apart (h : Apart cs cs') (label : Option String) {n : Node} {s : List Char}
    (hread : countNode label cs = .ok (n, s)) :
    ∃ s', countNode label (skipLayout cs') = .ok (n, s') ∧ Apart s s' := by
  have hcast : Respects Apart fun cs => (cast? cs).map fun p =>
      (Node.field (label.getD "count") (.rows p.1), p.2) :=
    respects_cast?.map fun cast => Node.field (label.getD "count") (.rows cast)
  obtain ⟨rfl, hend⟩ | ⟨t, r, r', rfl, hfirst, hwhole, hwhole', hrest⟩ := h.cases
  · rw [hend]
    obtain ⟨rfl, rfl⟩ := Refusal.ok_pair_inj hread
    exact ⟨[], rfl, .nil⟩
  · rw [countNode_text hwhole] at hread
    rw [hfirst, countNode_text hwhole']
    refine hcast ?_ hread
    split
    · exact hrest
    · exact .text hwhole hrest

theorem respects_columnField (ident : String) (label : Option String) :
    Respects Apart (columnField ident label) :=
  respects_path?.bind fun _ => respects_tail.bind fun _ => .ok _

variable {body : Reader Fault (List Node)}

theorem respects_embedField (hbody : Respects Apart body) (ident : String) (label : Option String) :
    Respects Apart (embedField body ident label) := by
  refine respects_modifiers.bind fun join => hbody.bind fun nodes => ?_
  cases label with
  | none => exact .ok _
  | some label => exact .ok _

/-- What is no count of all rows is an embed or a column, which the first character decides. -/
theorem field_eq {ident : String} (hcount : ¬(ident = "count" ∧ countFollows (skipLayout cs) = true))
    (label : Option String) : field body ident label cs =
      if (skipLayout cs).head? = some '!' ∨ (skipLayout cs).head? = some '(' then
        embedField body ident label (skipLayout cs)
      else columnField ident label (skipLayout cs) := by
  unfold field
  simp only [if_neg hcount]
  split
  · rename_i hskip
    simp [hskip]
  · rename_i hskip
    simp [hskip]
  · rename_i hbang hparen
    rw [if_neg]
    rintro (hhead | hhead)
    · obtain ⟨s, hs⟩ := List.head?_eq_some_iff.mp hhead
      exact hbang s hs
    · obtain ⟨s, hs⟩ := List.head?_eq_some_iff.mp hhead
      exact hparen s hs

/-- **A column, an embed and the count of all rows** are told apart alike in both texts. -/
theorem respects_field (hbody : Respects Apart body) (ident : String) (label : Option String) :
    Respects Apart (field body ident label) := by
  intro cs cs' n s hapart h
  obtain ⟨hself, hskipped⟩ := hapart.skipLayout
  have hfollows := countFollows_apart hapart
  have hfirst := head?_apart hapart
  by_cases hcount : ident = "count" ∧ countFollows cs = true
  · simp only [field, hself, if_pos hcount] at h
    simp only [field, hfollows, if_pos hcount]
    exact countNode_apart hapart label h
  · rw [field_eq (by rwa [hself]), hself] at h
    rw [field_eq (by rwa [hfollows]), hfirst]
    split at h
    · rename_i hembed
      rw [if_pos hembed]
      exact respects_embedField hbody ident label hskipped h
    · rename_i hembed
      rw [if_neg hembed]
      exact respects_columnField ident label hskipped h

theorem respects_spreadNode (hbody : Respects Apart body) : Respects Apart (spreadNode body) :=
  respects_identifier.bind fun _ => respects_modifiers.bind fun _ => hbody.bind fun _ => .ok _

theorem respects_namedNode (hbody : Respects Apart body) : Respects Apart (namedNode body) := by
  refine respects_identifier.bind fun ident => ?_
  have hlabelled : Respects Apart fun cs => identifier cs >>= fun p =>
      field body p.1 (some ident) p.2 :=
    respects_identifier.bind fun target => respects_field hbody target (some ident)
  intro cs cs' n s hapart h
  obtain ⟨hnone, hnone'⟩ | ⟨s₀, s₀', hcolon, hcolon', hrest⟩ := keeps_colon?.cases hapart
  · simp only [hnone] at h
    simp only [hnone']
    exact respects_field hbody ident none hapart h
  · simp only [hcolon] at h
    simp only [hcolon']
    exact hlabelled hrest h

theorem node_text (h : t.WholeBefore r) : node body (t.text ++ r) =
    match t with
    | .star => .ok (.star, r)
    | .points => spreadNode body r
    | t => namedNode body (t.text ++ r) := by
  unfold node
  rw [skipLayout_text h]
  cases t with
  | word w =>
    obtain ⟨c, w', rfl, hc⟩ := exists_cons_word h
    split
    · rename_i heq
      exact absurd (List.cons.inj heq).1 (hc '*' (by decide))
    · rename_i heq
      exact absurd (List.cons.inj heq).1 (hc '.' (by decide))
    · rfl
  | aggregate a => cases a <;> rfl
  | _ => rfl

theorem respects_node (hbody : Respects Apart body) : Respects Apart (node body) := by
  intro cs cs' n s hapart h
  obtain ⟨rfl, hend⟩ | ⟨t, r, r', rfl, hfirst, hwhole, hwhole', hrest⟩ := hapart.cases
  · exact absurd h (by simp [node, namedNode, identifier, spanWord, bind, Except.bind])
  · have hnamed := respects_namedNode hbody (Apart.text hwhole hrest) (a := n) (r := s)
    rw [node_text hwhole] at h
    rw [← node_skipLayout cs', hfirst, node_text hwhole']
    cases t with
    | star =>
      obtain ⟨rfl, rfl⟩ := Refusal.ok_pair_inj h
      exact ⟨r', rfl, hrest⟩
    | points => exact respects_spreadNode hbody hrest h
    | _ => exact hnamed h

/-! ## Lists -/

theorem query_eq : query body cs =
    if (skipLayout cs).head? = none ∨ (skipLayout cs).head? = some ')' then .ok ([], skipLayout cs)
    else Text.separated (node body) comma? (skipLayout cs) := by
  cases hskip : skipLayout cs with
  | nil => simp [query, hskip]
  | cons c s =>
    by_cases hc : c = ')'
    · subst hc
      simp [query, hskip]
    · rw [query_eq_separated hskip hc]
      simp [hc]

theorem respects_query {n : Nat} (hyields : Text.Yields body (Body n)) (hbody : Respects Apart body) :
    Respects Apart (query body) := by
  intro cs cs' nodes s hapart h
  obtain ⟨hself, hskipped⟩ := hapart.skipLayout
  rw [query_eq, hself] at h
  rw [query_eq, head?_apart hapart]
  split at h
  · rename_i hend
    obtain ⟨rfl, rfl⟩ := Refusal.ok_pair_inj h
    rw [if_pos hend]
    exact ⟨_, rfl, hskipped⟩
  · rename_i hend
    rw [if_neg hend]
    exact Respects.separated (yields_node hyields).shrinks takes_comma?.consumes (respects_node hbody)
      keeps_comma? hskipped h

theorem respects_closing (nodes : List Node) :
    Respects Apart fun cs => (closeParen cs).map fun s => (nodes, s) := by
  intro cs cs' as s hapart h
  obtain ⟨r, hclose, heq⟩ := Refusal.map_eq_ok.mp h
  obtain ⟨rfl, rfl⟩ := Prod.mk.inj heq
  obtain ⟨r', hclose', hrest⟩ := closeParen_apart hapart hclose
  exact ⟨r', Refusal.map_eq_ok.mpr ⟨_, hclose', rfl⟩, hrest⟩

theorem respects_bodyAt (n : Nat) : Respects Apart (bodyAt n) := by
  induction n with
  | zero =>
    intro cs cs' nodes s hapart h
    simp [bodyAt] at h
  | succ n ih =>
    intro cs cs' nodes s hapart h
    rw [bodyAt_eq] at h
    obtain ⟨r, hopen, h⟩ := Refusal.bind_eq_ok.mp h
    obtain ⟨r', hopen', hrest⟩ := openParen_apart hapart hopen
    -- an empty pair is closed at once in both texts
    have hfirst : (skipLayout r').head? = (skipLayout r).head? := by
      rw [head?_apart hrest, hrest.skipLayout.1]
    split at h
    · rename_i hclose
      obtain ⟨s', hclose', hs⟩ := respects_closing [.star] hrest h
      refine ⟨s', ?_, hs⟩
      rw [bodyAt_eq]
      exact Refusal.bind_eq_ok.mpr ⟨r', hopen', by rwa [if_pos (by rwa [hfirst])]⟩
    · rename_i hlist
      obtain ⟨s', hlist', hs⟩ :=
        (respects_query (yields_bodyAt n) ih).bind respects_closing hrest h
      refine ⟨s', ?_, hs⟩
      rw [bodyAt_eq]
      exact Refusal.bind_eq_ok.mpr ⟨r', hopen', by rwa [if_neg (by rwa [hfirst])]⟩

/-! ## Whole texts -/

/-- What is left of a text that is cut is blank only at its end. -/
theorem Apart.blank (h : Apart cs cs') (hblank : ∀ c ∈ cs, Text.isBlank c = true) :
    ∀ c ∈ cs', Text.isBlank c = true := by
  obtain ⟨rfl, hend⟩ | ⟨t, r, r', rfl, -, hwhole, -, -⟩ := h.cases
  · intro c hc
    exact Text.isBlank_of_isLayout (List.dropWhile_eq_nil_iff.mp hend c hc)
  · obtain ⟨c, w, htext, hc⟩ := exists_cons_text hwhole
    rw [htext] at hblank
    rw [hblank c (by simp)] at hc
    exact absurd hc (by simp)

/-- **A text that is cut says the same when it is spaced.** -/
theorem readAll_apart (h : Apart cs cs') {nodes : List Node} (hread : readAll cs = .ok nodes) :
    readAll cs' = .ok nodes := by
  obtain ⟨r, hquery, hblank⟩ := readAll_eq_ok.mp hread
  obtain ⟨r', hquery', hrest⟩ :=
    respects_query (yields_bodyAt maxNesting) (respects_bodyAt maxNesting) h hquery
  exact readAll_eq_ok.mpr ⟨r', hquery', hrest.blank hblank⟩

/-! ## Written texts -/

/-- A text that can be cut into tokens. -/
def Cuttable (cs : List Char) : Prop := ∃ ts, Cut cs ts

theorem Cuttable.text (h : t.WholeBefore r) (hr : Cuttable r) : Cuttable (t.text ++ r) := by
  obtain ⟨ts, hr⟩ := hr
  exact ⟨t :: ts, .cons h hr⟩

/-- **What can stand after a name**: it ends a word and can be cut. -/
structure AfterName (cs : List Char) : Prop where
  endsWord : EndsWord cs
  cuttable : Cuttable cs

theorem AfterName.nil : AfterName [] := ⟨by simp [EndsWord], [], .nil⟩

theorem head?_identText_ne (name : String) (r : List Char) {d : Char} (hd : d ≠ '"')
    (hword : Text.isWordChar d = false) : (identText name ++ r).head? ≠ some d := by
  obtain ⟨c, w, htext, hc⟩ := exists_cons_identText name
  rw [htext]
  simpa using ne_of_identStart hc hd hword

theorem cuttable_identText {name : String} (h : Unquoted name) (hr : AfterName r) :
    Cuttable (identText name ++ r) := by
  by_cases hbare : name ≠ "" ∧ name.toList.all Text.isWordChar
  · have htext : identText name = (Token.word name.toList).text := if_pos hbare
    obtain ⟨hne, hall⟩ := hbare
    rw [htext]
    exact hr.cuttable.text ⟨fun hnil => hne (String.toList_eq_nil_iff.mp hnil),
      List.all_eq_true.mp hall, hr.endsWord⟩
  · have htext : identText name = (Token.quoted name.toList).text := if_neg hbare
    rw [htext]
    exact hr.cuttable.text h

theorem afterName_castText {cast : Option String} (h : ∀ c ∈ cast, Unquoted c) (hr : AfterName r) :
    AfterName (castText cast ++ r) := by
  cases cast with
  | none => exact hr
  | some c =>
    have hname := cuttable_identText (h c rfl) hr
    exact ⟨endsWord_cons (by decide), hname.text (t := .doubleColon) trivial⟩

theorem afterName_keysText {keys : List (List Char)} (h : ∀ k ∈ keys, '"' ∉ k) (hr : AfterName r) :
    AfterName (keysText keys ++ r) := by
  induction keys with
  | nil => exact hr
  | cons k ks ih =>
    have hk : Unquoted (String.ofList k) := by
      rw [Unquoted, String.toList_ofList]
      exact h k (by simp)
    have hname := cuttable_identText hk (ih fun j hj => h j (List.mem_cons_of_mem k hj))
    have htext : keysText (k :: ks) ++ r =
        Token.arrow.text ++ (identText (String.ofList k) ++ (keysText ks ++ r)) := by
      simp [keysText, Token.text]
    rw [htext]
    exact ⟨endsWord_cons (by decide), hname.text (head?_identText_ne _ _ (by decide) (by decide))⟩

theorem afterName_tailText {f : Field} (hpre : ∀ c ∈ f.preCast, Unquoted c)
    (hcast : ∀ c ∈ f.cast, Unquoted c) (hr : AfterName r) : AfterName (tailText f ++ r) := by
  have hlast := afterName_castText hcast hr
  unfold tailText
  cases f.aggregate with
  | none => exact hlast
  | some a =>
    have htext : castText f.preCast ++ '.' :: a.word.toList ++ ['(', ')'] ++ castText f.cast ++ r =
        castText f.preCast ++ ((Token.aggregate a).text ++ (castText f.cast ++ r)) := by
      simp [Token.text]
    rw [htext]
    exact afterName_castText hpre ⟨endsWord_cons (by decide), hlast.cuttable.text trivial⟩

theorem cuttable_labelled {label name : String} (h : Unquoted label)
    (hr : Cuttable (identText name ++ r)) : Cuttable (identText label ++ ':' :: (identText name ++ r)) := by
  have hcolon : Token.colon.WholeBefore (identText name ++ r) :=
    head?_identText_ne name r (by decide) (by decide)
  exact cuttable_identText h ⟨endsWord_cons (by decide), hr.text hcolon⟩

theorem cuttable_rowsText {label : String} (hlabel : Unquoted label) {cast : Option String}
    (hcast : ∀ c ∈ cast, Unquoted c) (hr : AfterName r) :
    Cuttable (fieldText label (.rows cast) ++ r) := by
  have hcount : Cuttable (identText "count" ++ (Token.parens.text ++ (castText cast ++ r))) :=
    cuttable_identText (by decide) ⟨endsWord_cons (by decide),
      (afterName_castText hcast hr).cuttable.text trivial⟩
  by_cases hl : label = "count"
  · have htext : fieldText label (.rows cast) ++ r =
        identText "count" ++ (Token.parens.text ++ (castText cast ++ r)) := by
      simp [fieldText, Field.rows, hl, identText_count, Token.text]
    rwa [htext]
  · have htext : fieldText label (.rows cast) ++ r =
        identText label ++ ':' :: (identText "count" ++ (Token.parens.text ++ (castText cast ++ r))) := by
      simp [fieldText, Field.rows, hl, identText_count, Token.text]
    rw [htext]
    exact cuttable_labelled hlabel hcount

theorem cuttable_fieldText {label : String} {f : Field} (hlabel : Unquoted label)
    (hf : f.WellFormed label) (hr : AfterName r) : Cuttable (fieldText label f ++ r) := by
  cases hf with
  | rows hcast => exact cuttable_rowsText hlabel hcast hr
  | @computed column path preCast aggregate cast hcolumn hpath hpre hcast hagg hcount =>
    have hrows : ¬((Field.computed label column path preCast aggregate cast).aggregate = some .count ∧
        (Field.computed label column path preCast aggregate cast).column = none) := by
      rintro ⟨ha, hnone⟩
      obtain rfl : aggregate = some .count := ha
      simp [Field.computed] at hnone
    have hkeys := not_mem_pathKeys fun p hp => (hpath p hp).1
    have hcolumnText : Cuttable (identText column ++ (keysText (pathKeys path) ++
        (tailText (.computed label column path preCast aggregate cast) ++ r))) :=
      cuttable_identText hcolumn (afterName_keysText hkeys (afterName_tailText hpre hcast hr))
    unfold fieldText
    rw [if_neg hrows, Field.getD_column_computed]
    simp only [List.append_assoc]
    split
    · simp only [List.append_assoc, List.cons_append, List.nil_append]
      exact cuttable_labelled hlabel hcolumnText
    · exact hcolumnText

theorem afterName_modifiersText {join : Join} (h : join.WellFormed) (hr : AfterName r) :
    AfterName (modifiersText join ++ r) := by
  have hbang : ∀ {name : String} {r : List Char}, Unquoted name → AfterName r →
      AfterName (Token.bang.text ++ (identText name ++ r)) := by
    intro name r hname hr
    exact ⟨endsWord_cons (by decide), (cuttable_identText hname hr).text trivial⟩
  obtain ⟨resource, kind, hint⟩ := join
  have hkind : AfterName (modifiersText ⟨resource, kind, none⟩ ++ r) := by
    cases kind with
    | left => exact hr
    | inner =>
      have htext : modifiersText ⟨resource, .inner, none⟩ ++ r =
          Token.bang.text ++ (identText "inner" ++ r) := rfl
      rw [htext]
      exact hbang (by decide) hr
  cases hint with
  | none => exact hkind
  | some hint =>
    have htext : modifiersText ⟨resource, kind, some hint⟩ ++ r =
        Token.bang.text ++ (identText hint ++ (modifiersText ⟨resource, kind, none⟩ ++ r)) := by
      simp [modifiersText, Token.text]
    rw [htext]
    exact hbang (h.hint hint rfl).1 hkind

theorem cuttable_embedHead {label : String} {join : Join} (spread : Bool) (hlabel : Unquoted label)
    (hjoin : join.WellFormed) (hr : AfterName r) : Cuttable (embedHead label spread join ++ r) := by
  have hmodifiers := afterName_modifiersText hjoin hr
  unfold embedHead
  rw [List.append_assoc]
  cases spread with
  | true => exact (cuttable_identText hlabel hmodifiers).text (t := .points) trivial
  | false =>
    simp only [Bool.false_eq_true, if_false]
    cases hresource : join.resource with
    | none => exact cuttable_identText hlabel hmodifiers
    | some resource =>
      simp only [List.append_assoc, List.cons_append]
      exact cuttable_labelled hlabel
        (cuttable_identText (hjoin.resource resource hresource) hmodifiers)

variable {α : Type}

theorem afterName_itemsTailText {join : JoinMap} {items : List (Item α)}
    (h : ∀ i ∈ items, ∀ r, AfterName r → Cuttable (itemText join i ++ r)) (hr : AfterName r) :
    AfterName (itemsTailText join items ++ r) := by
  induction items with
  | nil =>
    rw [itemsTailText]
    exact hr
  | cons i is ih =>
    have hrest := ih fun j hj => h j (List.mem_cons_of_mem i hj)
    have htext : itemsTailText join (i :: is) ++ r =
        Token.comma.text ++ (itemText join i ++ (itemsTailText join is ++ r)) := by
      simp [itemsTailText, Token.text]
    rw [htext]
    exact ⟨endsWord_cons (by decide), (h i (by simp) _ hrest).text trivial⟩

theorem cuttable_itemsText {join : JoinMap} {items : List (Item α)}
    (h : ∀ i ∈ items, ∀ r, AfterName r → Cuttable (itemText join i ++ r)) (hr : AfterName r) :
    Cuttable (itemsText join items ++ r) := by
  cases items with
  | nil =>
    rw [itemsText]
    exact hr.cuttable
  | cons i is =>
    rw [itemsText, List.append_assoc]
    exact h i (by simp) _ (afterName_itemsTailText (fun j hj => h j (List.mem_cons_of_mem i hj)) hr)

theorem cuttable_itemText {join : JoinMap} {i : Item α} (h : i.WellFormed join) (hr : AfterName r) :
    Cuttable (itemText join i ++ r) := by
  induction h generalizing r with
  | star =>
    rw [itemText]
    exact hr.cuttable.text (t := .star) trivial
  | column hname =>
    rw [itemText]
    exact cuttable_identText hname hr
  | field hlabel hf =>
    rw [itemText]
    exact cuttable_fieldText hlabel hf hr
  | @embed join label items note spread inner hlabel hjoin hne hitems ih =>
    have hclose : AfterName (')' :: r) :=
      ⟨endsWord_cons (by decide), hr.cuttable.text (t := .closeParen) trivial⟩
    have hlist := cuttable_itemsText (fun i hi r hr => ih i hi hr) hclose
    have hopen : AfterName ('(' :: (itemsText (inner.getD []) items ++ ')' :: r)) :=
      ⟨endsWord_cons (by decide), hlist.text (t := .openParen) (head?_itemsText_ne _ hne _)⟩
    rw [itemText_embed]
    exact cuttable_embedHead spread hlabel hjoin hopen

/-- **The text of a list is cut** into tokens. -/
theorem cuttable_render {items : List (Item α)} {join : JoinMap} (h : ∀ i ∈ items, i.WellFormed join) :
    Cuttable (render items join).toList := by
  have hitems := cuttable_itemsText (fun i hi r hr => cuttable_itemText (h i hi) hr) AfterName.nil
  rwa [List.append_nil, ← String.toList_ofList (l := itemsText join items)] at hitems

theorem parse_apart {s s' : String} (h : Apart s.toList s'.toList) {sel : Selection}
    (hs : parse (some s) = .ok sel) : parse (some s') = .ok sel := by
  obtain ⟨nodes, hread, rfl⟩ := parse_eq_ok.mp hs
  exact parse_eq_ok.mpr ⟨nodes, readAll_apart h hread, rfl⟩

/-- **White space between tokens says nothing.** The text of a list that was read is cut into tokens in one
way. It is read again, and with layout before any of its tokens and at the end it is read as the same list,
with the same joins and the same labels. -/
theorem parse_spaced {text : Option String} {sel : Selection} (h : parse text = .ok sel) :
    (∃! tokens, Cut (render sel.items sel.join).toList tokens) ∧
    ∃ sel', parse (some (render sel.items sel.join)) = .ok sel' ∧
      ∀ tokens spaced, Cut (render sel.items sel.join).toList tokens →
        Spaced tokens (String.toList spaced) → parse (some spaced) = .ok sel' := by
  obtain ⟨nodes, hnodes, rfl⟩ := Refusal.map_eq_ok.mp h
  have hwf : ∀ i ∈ itemsOf nodes, i.WellFormed (joins nodes) :=
    wellFormed_itemsOf fun n hn => (wellFormed_of_nodesOf hnodes n hn).1
  have hrender := parse_render hwf (depthOf_le_of_nodesOf hnodes)
  obtain ⟨tokens, hcut⟩ := cuttable_render hwf
  exact ⟨⟨tokens, hcut, fun _ hcut' => hcut'.unique hcut⟩, _, hrender,
    fun tokens spaced hcut hspaced => parse_apart ⟨tokens, hcut, hspaced⟩ hrender⟩

/-- A path that is cast and summed, the count of all rows under a label, and a spread embed with a hint. -/
theorem parse_spaced_marks :
    ∃ sel sel', parse (some "n:a->\"k k\"::int.sum(),all:count(),...b!h!inner(*)") = .ok sel ∧
      parse (some (render sel.items sel.join)) = .ok sel' ∧
      parse (some "\tn : a\n->\r\n\"k k\" ::int .sum(), all :count () , ... b ! h !inner ( * )  ") =
        .ok sel' := by
  have h : parse (some "n:a->\"k k\"::int.sum(),all:count(),...b!h!inner(*)") = .ok (.ofNodes
      [.field "n" ⟨some "a", some "$.k k", some "int", some .sum, none⟩, .field "all" (.rows none),
        .embed "b" ⟨none, .inner, some "h"⟩ true [.star]]) := by
    cbv
  obtain ⟨-, sel', hsel', hspaced⟩ := parse_spaced h
  refine ⟨_, sel', h, hsel', ?_⟩
  let spaced : List (List Char × Token) :=
    [(['\t'], .word ['n']), ([' '], .colon), ([' '], .word ['a']), (['\n'], .arrow),
      (['\r', '\n'], .quoted ['k', ' ', 'k']), ([' '], .doubleColon), ([], .word ['i', 'n', 't']),
      ([' '], .aggregate .sum), ([], .comma), ([' '], .word ['a', 'l', 'l']), ([' '], .colon),
      ([], .word ['c', 'o', 'u', 'n', 't']), ([' '], .parens), ([' '], .comma), ([' '], .points),
      ([' '], .word ['b']), ([' '], .bang), ([' '], .word ['h']), ([' '], .bang),
      ([], .word ['i', 'n', 'n', 'e', 'r']), ([' '], .openParen), ([' '], .star), ([' '], .closeParen)]
  have hcut : Cut "n:a->\"k k\"::int.sum(),all:count(),...b!h!inner(*)".toList
      (spaced.map Prod.snd) := by
    decide
  have hgaps := spaced_of_gaps spaced [' ', ' '] (by decide) (by decide)
  exact hspaced _ _ hcut hgaps

end ResourceQuery.Select
