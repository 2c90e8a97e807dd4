import ResourceQuery.Proofs.Select.Sound

/-! # Written and read back

The pieces of an entry are read back where they end: names, casts, aggregates, paths, and labels with
their colon.

A name ends before whatever is no letter, digit or underscore (`EndsWord`). What follows an entry is a
comma, a closing parenthesis or the end (`Follows`), where none of the marks stands that could carry on
the entry. What follows the name of a column is one of those marks, or what follows the entry
(`AfterColumn`). -/

namespace ResourceQuery.Select

open Text (Reader skipLayout spanWord)

/-! ## Names -/

/-- A word ends here. -/
def EndsWord (rest : List Char) : Prop := ∀ c ∈ rest.head?, Text.isWordChar c = false

theorem endsWord_cons {c : Char} {r : List Char} (h : Text.isWordChar c = false) :
    EndsWord (c :: r) := by
  intro d hd
  obtain rfl : c = d := by simpa using hd
  exact h

theorem exists_cons_identText (name : String) :
    ∃ c r, identText name = c :: r ∧ (c = '"' ∨ Text.isWordChar c = true) := by
  unfold identText
  split
  · rename_i h
    obtain ⟨hne, hall⟩ := h
    cases hname : name.toList with
    | nil => exact absurd (String.toList_eq_nil_iff.mp hname) hne
    | cons c r =>
      rw [hname, List.all_cons, Bool.and_eq_true] at hall
      exact ⟨c, r, rfl, Or.inr hall.1⟩
  · exact ⟨'"', name.toList ++ ['"'], rfl, Or.inl rfl⟩

theorem ne_of_identStart {c d : Char} (h : c = '"' ∨ Text.isWordChar c = true) (hd : d ≠ '"')
    (hword : Text.isWordChar d = false) : c ≠ d := by
  rintro rfl
  rcases h with rfl | h
  · exact hd rfl
  · rw [hword] at h
    exact absurd h (by simp)

theorem isLayout_of_identStart {c : Char} (h : c = '"' ∨ Text.isWordChar c = true) :
    Text.isLayout c = false := by
  have hspace := ne_of_identStart h (d := ' ') (by decide) (by decide)
  have htab := ne_of_identStart h (d := '\t') (by decide) (by decide)
  have hreturn := ne_of_identStart h (d := '\r') (by decide) (by decide)
  have hfeed := ne_of_identStart h (d := '\n') (by decide) (by decide)
  simp [Text.isLayout, hspace, htab, hreturn, hfeed]

theorem skipLayout_identText (name : String) (rest : List Char) :
    skipLayout (identText name ++ rest) = identText name ++ rest := by
  obtain ⟨c, r, htext, hc⟩ := exists_cons_identText name
  rw [htext, List.cons_append, Text.skipLayout_cons_of_not (isLayout_of_identStart hc)]

theorem quotedText?_append {name rest : List Char} (h : '"' ∉ name) :
    quotedText? (name ++ '"' :: rest) = some (name, rest) := by
  induction name with
  | nil => simp [quotedText?]
  | cons c name ih =>
    have hc : c ≠ '"' := fun hc => h (by simp [hc])
    simp [quotedText?, hc, ih fun hn => h (List.mem_cons_of_mem c hn)]

/-- **A name is read back**, where it ends. -/
theorem identifier_identText {name : String} (h : Unquoted name) {rest : List Char}
    (hrest : EndsWord rest) : identifier (identText name ++ rest) = .ok (name, rest) := by
  unfold identifier
  rw [skipLayout_identText]
  by_cases hbare : name ≠ "" ∧ name.toList.all Text.isWordChar
  · obtain ⟨hne, hall⟩ := id hbare
    rw [List.all_eq_true] at hall
    have htext : identText name = name.toList := if_pos hbare
    rw [htext]
    split
    · rename_i heq
      cases hname : name.toList with
      | nil => exact absurd (String.toList_eq_nil_iff.mp hname) hne
      | cons c w =>
        rw [hname, List.cons_append, List.cons.injEq] at heq
        have := hall c (by simp [hname])
        rw [heq.1, isWordChar_quote] at this
        exact absurd this (by simp)
    · rw [Text.spanWord_append hall hrest]
      split
      · rename_i heq
        simp only [Prod.mk.injEq] at heq
        exact absurd (String.toList_eq_nil_iff.mp heq.1) hne
      · rename_i heq
        simp only [Prod.mk.injEq] at heq
        obtain ⟨rfl, rfl⟩ := heq
        rw [String.ofList_toList]
  · have htext : identText name ++ rest = '"' :: (name.toList ++ '"' :: rest) := by
      rw [identText, if_neg hbare]
      simp
    rw [htext]
    simp only [quotedText?_append h, String.ofList_toList]

/-! ## What follows -/

/-- **What follows an entry**: a comma, a closing parenthesis or nothing. -/
def Follows (rest : List Char) : Prop := ∀ c ∈ rest.head?, c = ',' ∨ c = ')'

theorem follows_nil : Follows [] := by simp [Follows]

theorem follows_comma (r : List Char) : Follows (',' :: r) := by simp [Follows]

theorem follows_paren (r : List Char) : Follows (')' :: r) := by simp [Follows]

theorem Follows.cases {rest : List Char} (h : Follows rest) :
    rest = [] ∨ (∃ r, rest = ',' :: r) ∨ ∃ r, rest = ')' :: r := by
  cases rest with
  | nil => exact Or.inl rfl
  | cons c r =>
    rcases h c rfl with rfl | rfl
    · exact Or.inr (Or.inl ⟨r, rfl⟩)
    · exact Or.inr (Or.inr ⟨r, rfl⟩)

theorem Follows.endsWord {rest : List Char} (h : Follows rest) : EndsWord rest := by
  intro c hc
  rcases h c hc with rfl | rfl <;> decide

theorem Follows.countFollows {rest : List Char} (h : Follows rest) : countFollows rest = true := by
  obtain rfl | ⟨r, rfl⟩ | ⟨r, rfl⟩ := h.cases <;> rfl

theorem Follows.no_mark {rest : List Char} (h : Follows rest) :
    colon? rest = none ∧ doubleColon? rest = none ∧ arrow? rest = none ∧ aggregate? rest = none := by
  obtain rfl | ⟨r, rfl⟩ | ⟨r, rfl⟩ := h.cases
  · exact ⟨rfl, rfl, rfl, rfl⟩
  · have hskip : skipLayout (',' :: r) = ',' :: r := Text.skipLayout_cons_of_not (by decide)
    simp [colon?, doubleColon?, arrow?, aggregate?, hskip]
  · have hskip : skipLayout (')' :: r) = ')' :: r := Text.skipLayout_cons_of_not (by decide)
    simp [colon?, doubleColon?, arrow?, aggregate?, hskip]

/-! ## Columns -/

theorem doubleColon?_append (r : List Char) : doubleColon? (':' :: ':' :: r) = some r := by
  have hskip : skipLayout (':' :: ':' :: r) = ':' :: ':' :: r :=
    Text.skipLayout_cons_of_not (by decide)
  simp [doubleColon?, hskip]

theorem cast?_castText {cast : Option String} (h : ∀ c ∈ cast, Unquoted c) {rest : List Char}
    (hrest : EndsWord rest) (hcolon : doubleColon? rest = none) :
    cast? (castText cast ++ rest) = .ok (cast, rest) := by
  unfold cast?
  cases cast with
  | none => simp only [castText, List.nil_append, hcolon]
  | some t =>
    simp only [castText, List.cons_append, doubleColon?_append]
    rw [identifier_identText (h t rfl) hrest]
    rfl

theorem aggregate?_append (a : Aggregate) (rest : List Char) :
    aggregate? ('.' :: (a.word.toList ++ '(' :: ')' :: rest)) = some (a, rest) := by
  have hall : a.word.toList.all Text.isWordChar = true := by cases a <;> decide
  have hword := List.all_eq_true.mp hall
  have hspan : spanWord (a.word.toList ++ '(' :: ')' :: rest) = (a.word.toList, '(' :: ')' :: rest) :=
    Text.spanWord_append hword (endsWord_cons (by decide))
  unfold aggregate?
  rw [Text.skipLayout_cons_of_not (by decide)]
  simp only [hspan, String.ofList_toList, Aggregate.ofWord?_word]

/-- **What a field applies to its column is read back.** -/
theorem tail_tailText {f : Field} (hpre : ∀ c ∈ f.preCast, Unquoted c)
    (hcast : ∀ c ∈ f.cast, Unquoted c) (hagg : f.preCast.isSome → f.aggregate.isSome)
    {rest : List Char} (hrest : Follows rest) :
    tail (tailText f ++ rest) = .ok ((f.preCast, f.aggregate, f.cast), rest) := by
  obtain ⟨-, hcolon, -, hnone⟩ := hrest.no_mark
  unfold tail tailText
  cases ha : f.aggregate with
  | none =>
    have hpreCast : f.preCast = none := by
      rw [ha] at hagg
      simpa using hagg
    simp only [cast?_castText hcast hrest.endsWord hcolon, bind, Except.bind, hnone, hpreCast, pure,
      Except.pure]
  | some a =>
    have htext : castText f.preCast ++ '.' :: a.word.toList ++ ['(', ')'] ++ castText f.cast ++ rest =
        castText f.preCast ++
          '.' :: (a.word.toList ++ '(' :: ')' :: (castText f.cast ++ rest)) := by
      simp
    have hpoint : ∀ r, doubleColon? ('.' :: r) = none := by
      intro r
      unfold doubleColon?
      rw [Text.skipLayout_cons_of_not (by decide)]
      simp
    simp only [htext, cast?_castText hpre (endsWord_cons (by decide)) (hpoint _), bind, Except.bind,
      aggregate?_append, cast?_castText hcast hrest.endsWord hcolon, pure, Except.pure]

theorem arrow?_identText (name : String) (rest : List Char) :
    arrow? ('-' :: '>' :: (identText name ++ rest)) = some (identText name ++ rest) := by
  obtain ⟨c, r, htext, hc⟩ := exists_cons_identText name
  have hne : c ≠ '>' := ne_of_identStart hc (by decide) (by decide)
  unfold arrow?
  rw [Text.skipLayout_cons_of_not (by decide), htext]
  split
  · rename_i heq
    simp only [List.cons_append, List.cons.injEq, true_and] at heq
    exact absurd heq.1 hne
  · rename_i heq
    simp only [List.cons.injEq, true_and] at heq
    rw [heq]
  · simp_all

theorem dropRoot_suffix (cs : List Char) : dropRoot cs <:+ cs := by
  fun_induction dropRoot cs with
  | case1 cs ih => exact ih.trans ((List.suffix_cons _ _).trans (List.suffix_cons _ _))
  | case2 cs => exact List.suffix_refl _

theorem not_mem_pathKeys {path : Option String} (h : ∀ p ∈ path, Unquoted p) :
    ∀ k ∈ pathKeys path, '"' ∉ k := by
  intro k hk hquote
  cases path with
  | none => simp [pathKeys] at hk
  | some p =>
    have hmem : '"' ∈ Text.joinWith ['.'] (pathKeys (some p)) := Text.mem_joinWith_of_mem hk hquote
    rw [pathKeys, Text.joinWith_splitOn] at hmem
    exact h p rfl ((dropRoot_suffix p.toList).subset hmem)

/-- A path as it is written. -/
def keysText (keys : List (List Char)) : List Char :=
  keys.flatMap fun k => '-' :: '>' :: identText (String.ofList k)

theorem path?_keysText {keys : List (List Char)} (h : ∀ k ∈ keys, '"' ∉ k) {rest : List Char}
    (hrest : EndsWord rest) (harrow : arrow? rest = none) :
    path? (keysText keys ++ rest) =
      .ok (if keys = [] then none else some (keys.map String.ofList), rest) := by
  unfold path?
  cases keys with
  | nil => simp [keysText, harrow]
  | cons k ks =>
    have htext : keysText (k :: ks) ++ rest = '-' :: '>' :: (identText (String.ofList k) ++
        (ks.flatMap (fun k => ['-', '>'] ++ identText (String.ofList k)) ++ rest)) := by
      simp [keysText]
    have hunquoted : ∀ j ∈ k :: ks, Unquoted (String.ofList j) := by
      intro j hj
      rw [Unquoted, String.toList_ofList]
      exact h j hj
    rw [htext, arrow?_identText]
    simp only
    rw [Text.separated_append EndsWord String.ofList yields_identifier.shrinks takes_arrow?.consumes
      (fun _ => endsWord_cons (by decide)) (fun j _ r => arrow?_identText (String.ofList j) r)
      (fun j hj r hr => identifier_identText (hunquoted j hj) hr) hrest harrow]
    rfl

theorem tailText_cases (f : Field) {rest : List Char} (hrest : Follows rest) :
    (∃ r, tailText f ++ rest = ':' :: ':' :: r) ∨ (∃ r, tailText f ++ rest = '.' :: r) ∨
      Follows (tailText f ++ rest) := by
  have cast_cases : ∀ (cast : Option String) (r : List Char),
      (∃ r', castText cast ++ r = ':' :: ':' :: r') ∨ castText cast ++ r = r := by
    intro cast r
    cases cast with
    | none => exact Or.inr rfl
    | some t => exact Or.inl ⟨identText t ++ r, rfl⟩
  unfold tailText
  cases f.aggregate with
  | none =>
    obtain h | h := cast_cases f.cast rest
    · exact Or.inl h
    · exact Or.inr (Or.inr (by simpa only [h] using hrest))
  | some a =>
    simp only [List.append_assoc, List.cons_append]
    obtain h | h := cast_cases f.preCast
      ('.' :: (a.word.toList ++ '(' :: ')' :: ([] ++ (castText f.cast ++ rest))))
    · exact Or.inl h
    · exact Or.inr (Or.inl ⟨_, h⟩)

/-- **What stands after the name of a column**: a path, a cast, an aggregate, or what follows the
entry. -/
inductive AfterColumn : List Char → Prop where
  | path (r : List Char) : AfterColumn ('-' :: r)
  | cast (r : List Char) : AfterColumn (':' :: ':' :: r)
  | aggregate (r : List Char) : AfterColumn ('.' :: r)
  | follows {rest : List Char} (h : Follows rest) : AfterColumn rest

theorem AfterColumn.endsWord {r : List Char} (h : AfterColumn r) : EndsWord r := by
  cases h with
  | path => exact endsWord_cons (by decide)
  | cast => exact endsWord_cons (by decide)
  | aggregate => exact endsWord_cons (by decide)
  | follows h => exact h.endsWord

theorem AfterColumn.skipLayout {r : List Char} (h : AfterColumn r) : skipLayout r = r := by
  cases h with
  | path => exact Text.skipLayout_cons_of_not (by decide)
  | cast => exact Text.skipLayout_cons_of_not (by decide)
  | aggregate => exact Text.skipLayout_cons_of_not (by decide)
  | follows h =>
    obtain rfl | ⟨r, rfl⟩ | ⟨r, rfl⟩ := h.cases
    · rfl
    · exact Text.skipLayout_cons_of_not (by decide)
    · exact Text.skipLayout_cons_of_not (by decide)

theorem AfterColumn.colon? {r : List Char} (h : AfterColumn r) : colon? r = none := by
  have hskip := h.skipLayout
  cases h with
  | path => simp [Select.colon?, hskip]
  | cast => simp [Select.colon?, hskip]
  | aggregate => simp [Select.colon?, hskip]
  | follows h => exact h.no_mark.1

theorem afterColumn_tailText (f : Field) {rest : List Char} (hrest : Follows rest) :
    AfterColumn (tailText f ++ rest) := by
  obtain ⟨r, h⟩ | ⟨r, h⟩ | h := tailText_cases f hrest
  · exact h ▸ .cast r
  · exact h ▸ .aggregate r
  · exact .follows h

theorem arrow?_tailText (f : Field) {rest : List Char} (hrest : Follows rest) :
    arrow? (tailText f ++ rest) = none := by
  obtain ⟨r, h⟩ | ⟨r, h⟩ | h := tailText_cases f hrest
  · have hskip : skipLayout (':' :: ':' :: r) = ':' :: ':' :: r :=
      Text.skipLayout_cons_of_not (by decide)
    simp [h, arrow?, hskip]
  · have hskip : skipLayout ('.' :: r) = '.' :: r := Text.skipLayout_cons_of_not (by decide)
    simp [h, arrow?, hskip]
  · exact h.no_mark.2.2.1

theorem afterColumn_keysText (keys : List (List Char)) (f : Field) {rest : List Char}
    (hrest : Follows rest) : AfterColumn (keysText keys ++ (tailText f ++ rest)) := by
  cases keys with
  | nil => exact afterColumn_tailText f hrest
  | cons k ks => exact .path _

theorem field_of_afterColumn {body : Reader Fault (List Node)} {ident : String}
    {label : Option String} {r : List Char} (h : AfterColumn r)
    (hcount : ¬(ident = "count" ∧ countFollows r = true)) :
    field body ident label r = columnField ident label r := by
  unfold field
  simp only [h.skipLayout, if_neg hcount]
  split
  · cases h with
    | follows h => exact absurd (h '!' rfl) (by decide)
  · cases h with
    | follows h => exact absurd (h '(' rfl) (by decide)
  · rfl

/-! ## Labels -/

variable {body : Reader Fault (List Node)}

theorem namedNode_labelled {label target : String} (hlabel : Unquoted label)
    (htarget : Unquoted target) {r : List Char} (hr : EndsWord r) :
    namedNode body (identText label ++ ':' :: (identText target ++ r)) =
      field body target (some label) r := by
  have hcolon : colon? (':' :: (identText target ++ r)) = some (identText target ++ r) := by
    obtain ⟨c, w, htext, hc⟩ := exists_cons_identText target
    have hne : c ≠ ':' := ne_of_identStart hc (by decide) (by decide)
    unfold colon?
    rw [Text.skipLayout_cons_of_not (by decide), htext]
    split
    · rename_i heq
      simp only [List.cons_append, List.cons.injEq, true_and] at heq
      exact absurd heq.1 hne
    · rename_i heq
      simp only [List.cons.injEq, true_and] at heq
      rw [heq]
    · simp_all
  have hends : EndsWord (':' :: (identText target ++ r)) := endsWord_cons (by decide)
  simp only [namedNode, identifier_identText hlabel hends, bind, Except.bind, hcolon,
    identifier_identText htarget hr]

theorem namedNode_unlabelled {ident : String} (hident : Unquoted ident) {r : List Char}
    (hr : EndsWord r) (hcolon : colon? r = none) :
    namedNode body (identText ident ++ r) = field body ident none r := by
  simp only [namedNode, identifier_identText hident hr, bind, Except.bind, hcolon]

theorem node_identText (name : String) (r : List Char) :
    node body (identText name ++ r) = namedNode body (identText name ++ r) := by
  obtain ⟨c, w, htext, hc⟩ := exists_cons_identText name
  have hstar : c ≠ '*' := ne_of_identStart hc (by decide) (by decide)
  have hpoint : c ≠ '.' := ne_of_identStart hc (by decide) (by decide)
  unfold node
  rw [skipLayout_identText, htext, List.cons_append]
  split
  · rename_i heq
    exact absurd (List.cons.inj heq).1 hstar
  · rename_i heq
    exact absurd (List.cons.inj heq).1 hpoint
  · rfl

end ResourceQuery.Select
