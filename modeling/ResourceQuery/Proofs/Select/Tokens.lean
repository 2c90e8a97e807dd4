import Mathlib
import ResourceQuery.Proofs.Select.Written

/-! # The tokens of a select list

A text is cut into tokens: names, bare or in quotes, the marks between them, a call of an aggregate, and the
empty parentheses of the count of all rows (`Cut`). No token could be carried on by what follows it
(`Token.WholeBefore`): a word is as long as it can be, `::` is not cut in two, and neither is `()`. So a text
is cut in one way (`Cut.unique`).

The tokens may be set apart by layout (`Spaced`). A text and the same text spaced are `Apart`: they are both
at their end, or the same token stands first in both, and the rests are apart again (`Apart.cases`). So each
mark is found in both or in neither (`keeps_comma?` and its likes), and a name is the same in both
(`respects_identifier`). -/

namespace ResourceQuery.Select

open Text (Reader skipLayout spanWord Respects Keeps)

/-- **A token of a select list.** -/
inductive Token where
  | word (w : List Char)
  | quoted (name : List Char)
  | star
  | points
  | comma
  | openParen
  | closeParen
  | parens
  | colon
  | doubleColon
  | arrow
  | bang
  | aggregate (a : Aggregate)
deriving DecidableEq

instance : (r : List Char) → Decidable (EndsWord r)
  | [] => .isTrue (by simp [EndsWord])
  | c :: _ => decidable_of_iff (Text.isWordChar c = false) (by simp [EndsWord])

namespace Token

/-- The text of a token. -/
def text : Token → List Char
  | word w => w
  | quoted name => '"' :: (name ++ ['"'])
  | star => ['*']
  | points => ['.', '.', '.']
  | comma => [',']
  | openParen => ['(']
  | closeParen => [')']
  | parens => ['(', ')']
  | colon => [':']
  | doubleColon => [':', ':']
  | arrow => ['-', '>']
  | bang => ['!']
  | aggregate a => '.' :: (a.word.toList ++ ['(', ')'])

/-- **A token is whole before a text** if the text does not carry it on. -/
def WholeBefore : Token → List Char → Prop
  | word w, r => w ≠ [] ∧ (∀ c ∈ w, Text.isWordChar c = true) ∧ EndsWord r
  | quoted name, _ => '"' ∉ name
  | openParen, r => r.head? ≠ some ')'
  | colon, r => r.head? ≠ some ':'
  | arrow, r => r.head? ≠ some '>'
  | _, _ => True

instance : (t : Token) → (r : List Char) → Decidable (t.WholeBefore r)
  | word w, r => decidable_of_iff (w ≠ [] ∧ w.all Text.isWordChar = true ∧ EndsWord r) <| by
      rw [List.all_eq_true, WholeBefore]
  | quoted name, _ => inferInstanceAs (Decidable ('"' ∉ name))
  | openParen, r => inferInstanceAs (Decidable (r.head? ≠ some ')'))
  | colon, r => inferInstanceAs (Decidable (r.head? ≠ some ':'))
  | arrow, r => inferInstanceAs (Decidable (r.head? ≠ some '>'))
  | star, _ | points, _ | comma, _ | closeParen, _ | parens, _ | doubleColon, _ | bang, _
  | aggregate _, _ => inferInstanceAs (Decidable True)

/-- The name that a token is. -/
def name? : Token → Option String
  | word w => some (String.ofList w)
  | quoted name => some (String.ofList name)
  | _ => none

end Token

/-- **A text cut into its tokens.** -/
inductive Cut : List Char → List Token → Prop where
  | nil : Cut [] []
  | cons {t : Token} {r : List Char} {ts : List Token} (h : t.WholeBefore r) (hr : Cut r ts) :
      Cut (t.text ++ r) (t :: ts)

/-- A run of layout, which may be empty. -/
def IsGap (cs : List Char) : Prop := ∀ c ∈ cs, Text.isLayout c = true

instance (cs : List Char) : Decidable (IsGap cs) :=
  decidable_of_iff (cs.all Text.isLayout = true) List.all_eq_true

/-- **Tokens with layout before any of them, and at the end.** -/
inductive Spaced : List Token → List Char → Prop where
  | nil {gap : List Char} (hgap : IsGap gap) : Spaced [] gap
  | cons {t : Token} {gap r : List Char} {ts : List Token} (hgap : IsGap gap) (hr : Spaced ts r) :
      Spaced (t :: ts) (gap ++ (t.text ++ r))

/-- **A text and the same text spaced.** -/
def Apart (cs cs' : List Char) : Prop := ∃ ts, Cut cs ts ∧ Spaced ts cs'

theorem cut_nil_iff {cs : List Char} : Cut cs [] ↔ cs = [] :=
  ⟨fun h => by cases h; rfl, fun h => h ▸ .nil⟩

theorem cut_cons_iff {cs : List Char} {t : Token} {ts : List Token} : Cut cs (t :: ts) ↔
    t.text <+: cs ∧ t.WholeBefore (cs.drop t.text.length) ∧ Cut (cs.drop t.text.length) ts := by
  constructor
  · intro h
    cases h with
    | cons h hr => exact ⟨List.prefix_append _ _, by simpa using h, by simpa using hr⟩
  · rintro ⟨⟨r, rfl⟩, h, hr⟩
    rw [List.drop_left] at h hr
    exact .cons h hr

instance decidableCut : (cs : List Char) → (ts : List Token) → Decidable (Cut cs ts)
  | _, [] => decidable_of_iff _ cut_nil_iff.symm
  | cs, t :: ts =>
    have := decidableCut (cs.drop t.text.length) ts
    decidable_of_iff _ cut_cons_iff.symm

theorem spaced_of_gaps (ts : List (List Char × Token)) (last : List Char) (h : ∀ p ∈ ts, IsGap p.1)
    (hlast : IsGap last) :
    Spaced (ts.map Prod.snd) (ts.flatMap (fun p => p.1 ++ p.2.text) ++ last) := by
  induction ts with
  | nil => exact .nil hlast
  | cons p ts ih =>
    have hrest := ih fun q hq => h q (List.mem_cons_of_mem p hq)
    simpa using Spaced.cons (t := p.2) (h p List.mem_cons_self) hrest

/-! ## Where tokens start -/

theorem isBlank_of_isWordChar {c : Char} (h : Text.isWordChar c = true) : Text.isBlank c = false := by
  simp only [Text.isWordChar, Char.isAlphanum, Char.isAlpha, Char.isUpper, Char.isLower, Char.isDigit,
    Bool.or_eq_true, Bool.and_eq_true, decide_eq_true_eq, beq_iff_eq, ge_iff_le,
    UInt32.le_iff_toNat_le] at h
  change (((65 ≤ c.toNat ∧ c.toNat ≤ 90) ∨ (97 ≤ c.toNat ∧ c.toNat ≤ 122)) ∨
    (48 ≤ c.toNat ∧ c.toNat ≤ 57)) ∨ c = '_' at h
  rcases h with h | rfl
  · simp [Text.isBlank]
    omega
  · decide

variable {t : Token} {r r' cs cs' : List Char}

theorem nil_or_cons_of_head?_ne {c : Char} (h : r.head? ≠ some c) :
    r = [] ∨ ∃ d s, r = d :: s ∧ d ≠ c := by
  cases r with
  | nil => exact .inl rfl
  | cons d s => exact .inr ⟨d, s, rfl, fun hd => h (congrArg some hd)⟩

theorem exists_cons_word {w : List Char} (h : (Token.word w).WholeBefore r) :
    ∃ c w', w = c :: w' ∧ ∀ d, Text.isWordChar d = false → c ≠ d := by
  obtain ⟨hne, hword, -⟩ := h
  obtain ⟨c, w', rfl⟩ := List.exists_cons_of_ne_nil hne
  refine ⟨c, w', rfl, ?_⟩
  rintro d hd rfl
  simp [hword c List.mem_cons_self] at hd

theorem exists_cons_text (h : t.WholeBefore r) : ∃ c w, t.text = c :: w ∧ Text.isBlank c = false := by
  cases t with
  | word w =>
    obtain ⟨hne, hword, -⟩ := h
    obtain ⟨c, w', rfl⟩ := List.exists_cons_of_ne_nil hne
    exact ⟨c, w', rfl, isBlank_of_isWordChar (hword c List.mem_cons_self)⟩
  | _ => exact ⟨_, _, rfl, by decide⟩

theorem skipLayout_text (h : t.WholeBefore r) : skipLayout (t.text ++ r) = t.text ++ r := by
  obtain ⟨c, w, htext, hc⟩ := exists_cons_text h
  rw [htext, List.cons_append, Text.skipLayout_cons_of_not]
  by_contra hlayout
  rw [Text.isBlank_of_isLayout (by simpa using hlayout)] at hc
  exact absurd hc (by simp)

theorem skipLayout_gap {gap : List Char} (hgap : IsGap gap) (cs : List Char) :
    skipLayout (gap ++ cs) = skipLayout cs := List.dropWhile_append_of_pos hgap

/-! ## One cut -/

/-- The token that a text starts with. -/
def firstToken : List Char → Option Token
  | '*' :: _ => some .star
  | ',' :: _ => some .comma
  | '!' :: _ => some .bang
  | ')' :: _ => some .closeParen
  | '(' :: ')' :: _ => some .parens
  | '(' :: _ => some .openParen
  | ':' :: ':' :: _ => some .doubleColon
  | ':' :: _ => some .colon
  | '-' :: '>' :: _ => some .arrow
  | '.' :: '.' :: '.' :: _ => some .points
  | '.' :: r => (aggregate? ('.' :: r)).map fun p => .aggregate p.1
  | '"' :: r => (quotedText? r).map fun p => .quoted p.1
  | cs => some (.word (spanWord cs).1)

theorem firstToken_text (h : t.WholeBefore r) : firstToken (t.text ++ r) = some t := by
  cases t with
  | word w =>
    obtain ⟨c, w', rfl, hc⟩ := exists_cons_word h
    have hspan : spanWord (c :: w' ++ r) = (c :: w', r) := Text.spanWord_append h.2.1 h.2.2
    have hstart : ∀ {d : Char} {r₁ r₂ : List Char}, Text.isWordChar d = false →
        c :: r₁ ≠ d :: r₂ := fun hd heq => hc _ hd (List.cons.inj heq).1
    unfold firstToken
    split
    all_goals first
      | exact absurd ‹_› (hstart (by decide))
      | exact congrArg (fun p => some (Token.word p.1)) hspan
  | quoted name =>
    have htext : (Token.quoted name).text ++ r = '"' :: (name ++ '"' :: r) := by simp [Token.text]
    rw [htext]
    simp only [firstToken, quotedText?_append h, Option.map_some]
  | openParen =>
    obtain rfl | ⟨d, r, rfl, hd⟩ := nil_or_cons_of_head?_ne h
    · rfl
    · simp [Token.text, firstToken, hd]
  | colon =>
    obtain rfl | ⟨d, r, rfl, hd⟩ := nil_or_cons_of_head?_ne h
    · rfl
    · simp [Token.text, firstToken, hd]
  | aggregate a =>
    have htext : (Token.aggregate a).text ++ r = '.' :: (a.word.toList ++ '(' :: ')' :: r) := by
      simp [Token.text]
    have hcall := aggregate?_append a r
    rw [htext]
    cases a <;> exact congrArg (Option.map fun p => Token.aggregate p.1) hcall
  | _ => rfl

/-- **A text is cut into tokens in one way.** -/
theorem Cut.unique {ts ts' : List Token} (h : Cut cs ts) (h' : Cut cs ts') : ts = ts' := by
  induction h generalizing ts' with
  | nil =>
    generalize hcs : ([] : List Char) = cs at h'
    cases h' with
    | nil => rfl
    | @cons t r ts' hwhole _ =>
      obtain ⟨c, w, htext, -⟩ := exists_cons_text hwhole
      simp [htext] at hcs
  | @cons t r ts hwhole hr ih =>
    generalize hcs : t.text ++ r = cs at h'
    cases h' with
    | nil =>
      obtain ⟨c, w, htext, -⟩ := exists_cons_text hwhole
      simp [htext] at hcs
    | @cons t' r' ts' hwhole' hr' =>
      have hfirst := firstToken_text hwhole
      rw [hcs, firstToken_text hwhole'] at hfirst
      obtain rfl := Option.some.inj hfirst
      obtain rfl := List.append_cancel_left hcs
      rw [ih hr']

/-! ## Texts apart -/

theorem Apart.nil : Apart [] [] := ⟨[], .nil, .nil (by simp [IsGap])⟩

theorem Apart.head? (h : Apart cs cs') {c : Char} (hc : cs'.head? = some c) :
    Text.isLayout c = true ∨ cs.head? = some c := by
  obtain ⟨ts, hcut, hspaced⟩ := h
  cases hspaced with
  | nil hgap => exact .inl (hgap c (List.mem_of_mem_head? hc))
  | @cons t gap r' ts hgap _ =>
    cases gap with
    | cons d gap =>
      obtain rfl : d = c := by simpa using hc
      exact .inl (hgap d List.mem_cons_self)
    | nil =>
      cases hcut with
      | cons hwhole _ =>
        obtain ⟨d, w, htext, -⟩ := exists_cons_text hwhole
        simp only [htext, List.nil_append, List.cons_append, List.head?_cons] at hc ⊢
        exact .inr hc

/-- **A token is whole in the spaced text too.** -/
theorem Token.WholeBefore.apart (h : t.WholeBefore r) (hrest : Apart r r') : t.WholeBefore r' := by
  have hne : ∀ d, Text.isLayout d = false → r.head? ≠ some d → r'.head? ≠ some d := by
    intro d hd hr hr'
    rcases hrest.head? hr' with hlayout | hhead
    · simp [hd] at hlayout
    · exact hr hhead
  cases t with
  | word w =>
    obtain ⟨hw, hword, hends⟩ := h
    refine ⟨hw, hword, fun c hc => ?_⟩
    rcases hrest.head? hc with hlayout | hhead
    · by_contra hword'
      have hblank := isBlank_of_isWordChar (by simpa using hword')
      rw [Text.isBlank_of_isLayout hlayout] at hblank
      exact absurd hblank (by simp)
    · exact hends c hhead
  | openParen => exact hne ')' (by decide) h
  | colon => exact hne ':' (by decide) h
  | arrow => exact hne '>' (by decide) h
  | quoted name => exact h
  | _ => trivial

/-- **The same token stands first**, or both texts are at their end. -/
theorem Apart.cases (h : Apart cs cs') : (cs = [] ∧ skipLayout cs' = []) ∨
    ∃ (t : Token) (r r' : List Char), cs = t.text ++ r ∧ skipLayout cs' = t.text ++ r' ∧
      t.WholeBefore r ∧ t.WholeBefore r' ∧ Apart r r' := by
  obtain ⟨ts, hcut, hspaced⟩ := h
  cases hcut with
  | nil =>
    cases hspaced with
    | nil hgap => exact .inl ⟨rfl, List.dropWhile_eq_nil_iff.mpr hgap⟩
  | @cons t r ts hwhole hr =>
    cases hspaced with
    | @cons _ gap r' _ hgap hr' =>
      have hrest : Apart r r' := ⟨ts, hr, hr'⟩
      have hwhole' := hwhole.apart hrest
      refine .inr ⟨t, r, r', rfl, ?_, hwhole, hwhole', hrest⟩
      rw [skipLayout_gap hgap, skipLayout_text hwhole']

theorem Apart.text (h : t.WholeBefore r) (hrest : Apart r r') : Apart (t.text ++ r) (t.text ++ r') := by
  obtain ⟨ts, hcut, hspaced⟩ := hrest
  have hspaced' : Spaced (t :: ts) ([] ++ (t.text ++ r')) := .cons (by simp [IsGap]) hspaced
  exact ⟨t :: ts, .cons h hcut, hspaced'⟩

theorem Apart.skipLayout (h : Apart cs cs') :
    Text.skipLayout cs = cs ∧ Apart cs (Text.skipLayout cs') := by
  obtain ⟨rfl, hnil⟩ | ⟨t, r, r', rfl, htext, hwhole, -, hrest⟩ := h.cases
  · rw [hnil]
    exact ⟨rfl, .nil⟩
  · rw [htext]
    exact ⟨skipLayout_text hwhole, .text hwhole hrest⟩

/-! ## Marks -/

theorem keeps_of_text {mark? : List Char → Option (List Char)} {mark : Token}
    (hskip : ∀ cs, mark? (skipLayout cs) = mark? cs) (hnil : mark? [] = none)
    (htext : ∀ {t : Token} {r : List Char}, t.WholeBefore r →
      mark? (t.text ++ r) = if t = mark then some r else none) : Keeps Apart mark? := by
  intro cs cs' h
  obtain ⟨rfl, hend⟩ | ⟨t, r, r', rfl, hfirst, hwhole, hwhole', hrest⟩ := h.cases
  · rw [← hskip cs', hend, hnil]
    exact .none
  · rw [← hskip cs', hfirst, htext hwhole, htext hwhole']
    split
    · exact .some hrest
    · exact .none

theorem comma?_text (h : t.WholeBefore r) :
    comma? (t.text ++ r) = if t = .comma then some r else none := by
  unfold comma?
  rw [skipLayout_text h]
  cases t with
  | word w =>
    obtain ⟨c, w', rfl, hc⟩ := exists_cons_word h
    simp [Token.text, hc ',' (by decide)]
  | _ => simp [Token.text]

theorem colon?_text (h : t.WholeBefore r) :
    colon? (t.text ++ r) = if t = .colon then some r else none := by
  unfold colon?
  rw [skipLayout_text h]
  cases t with
  | word w =>
    obtain ⟨c, w', rfl, hc⟩ := exists_cons_word h
    simp [Token.text, hc ':' (by decide)]
  | colon =>
    obtain rfl | ⟨d, r, rfl, hd⟩ := nil_or_cons_of_head?_ne h
    · simp [Token.text]
    · simp [Token.text, hd]
  | _ => simp [Token.text]

theorem doubleColon?_text (h : t.WholeBefore r) :
    doubleColon? (t.text ++ r) = if t = .doubleColon then some r else none := by
  unfold doubleColon?
  rw [skipLayout_text h]
  cases t with
  | word w =>
    obtain ⟨c, w', rfl, hc⟩ := exists_cons_word h
    simp [Token.text, hc ':' (by decide)]
  | colon =>
    obtain rfl | ⟨d, r, rfl, hd⟩ := nil_or_cons_of_head?_ne h
    · simp [Token.text]
    · simp [Token.text, hd]
  | _ => simp [Token.text]

theorem bang?_text (h : t.WholeBefore r) :
    bang? (t.text ++ r) = if t = .bang then some r else none := by
  unfold bang?
  rw [skipLayout_text h]
  cases t with
  | word w =>
    obtain ⟨c, w', rfl, hc⟩ := exists_cons_word h
    simp [Token.text, hc '!' (by decide)]
  | _ => simp [Token.text]

theorem arrow?_text (h : t.WholeBefore r) :
    arrow? (t.text ++ r) = if t = .arrow then some r else none := by
  unfold arrow?
  rw [skipLayout_text h]
  cases t with
  | word w =>
    obtain ⟨c, w', rfl, hc⟩ := exists_cons_word h
    simp [Token.text, hc '-' (by decide)]
  | arrow =>
    obtain rfl | ⟨d, r, rfl, hd⟩ := nil_or_cons_of_head?_ne h
    · simp [Token.text]
    · simp [Token.text, hd]
  | _ => simp [Token.text]

theorem keeps_comma? : Keeps Apart comma? :=
  keeps_of_text (fun cs => by rw [comma?, comma?, Text.skipLayout_skipLayout]) rfl comma?_text

theorem keeps_colon? : Keeps Apart colon? :=
  keeps_of_text (fun cs => by rw [colon?, colon?, Text.skipLayout_skipLayout]) rfl colon?_text

theorem keeps_doubleColon? : Keeps Apart doubleColon? :=
  keeps_of_text (fun cs => by rw [doubleColon?, doubleColon?, Text.skipLayout_skipLayout]) rfl
    doubleColon?_text

theorem keeps_bang? : Keeps Apart bang? :=
  keeps_of_text (fun cs => by rw [bang?, bang?, Text.skipLayout_skipLayout]) rfl bang?_text

theorem keeps_arrow? : Keeps Apart arrow? :=
  keeps_of_text (fun cs => by rw [arrow?, arrow?, Text.skipLayout_skipLayout]) rfl arrow?_text

/-! ## Words and names -/

theorem spanWord_text (h : t.WholeBefore r) : spanWord (t.text ++ r) =
    match t with
    | .word w => (w, r)
    | t => ([], t.text ++ r) := by
  cases t with
  | word w => exact Text.spanWord_append h.2.1 h.2.2
  | _ => rfl

theorem identifier_text (h : t.WholeBefore r) : identifier (t.text ++ r) =
    match t.name? with
    | some name => .ok (name, r)
    | none => .error ⟨.expected .identifier, t.text ++ r⟩ := by
  have hspan := spanWord_text h
  unfold identifier
  rw [skipLayout_text h]
  cases t with
  | word w =>
    obtain ⟨c, w', rfl, hc⟩ := exists_cons_word h
    split
    · rename_i heq
      exact absurd (List.cons.inj heq).1 (hc '"' (by decide))
    · rw [hspan]
      rfl
  | quoted name =>
    have htext : (Token.quoted name).text ++ r = '"' :: (name ++ '"' :: r) := by simp [Token.text]
    rw [htext]
    simp only [quotedText?_append h, Token.name?]
  | _ => rfl

theorem respects_identifier : Respects Apart identifier := by
  intro cs cs' name s h hread
  have hskip : identifier (skipLayout cs') = identifier cs' := by
    rw [identifier, identifier, Text.skipLayout_skipLayout]
  obtain ⟨rfl, -⟩ | ⟨t, r, r', rfl, hfirst, hwhole, hwhole', hrest⟩ := h.cases
  · exact absurd hread (by simp [identifier, spanWord])
  · rw [identifier_text hwhole] at hread
    rw [← hskip, hfirst, identifier_text hwhole']
    cases hname : t.name? with
    | none => simp [hname] at hread
    | some n =>
      simp only [hname] at hread
      obtain ⟨rfl, rfl⟩ := Refusal.ok_pair_inj hread
      exact ⟨r', rfl, hrest⟩

/-! ## Calls and parentheses -/

theorem aggregate?_text (h : t.WholeBefore r) : aggregate? (t.text ++ r) =
    match t with
    | .aggregate a => some (a, r)
    | _ => none := by
  cases t with
  | word w =>
    obtain ⟨c, w', rfl, hc⟩ := exists_cons_word h
    unfold aggregate?
    rw [skipLayout_text h]
    simp [Token.text, hc '.' (by decide)]
  | aggregate a =>
    have htext : (Token.aggregate a).text ++ r = '.' :: (a.word.toList ++ '(' :: ')' :: r) := by
      simp [Token.text]
    rw [htext, aggregate?_append]
  | _ =>
    unfold aggregate?
    rw [skipLayout_text h]
    rfl

/-- Whether a token after the word `count` makes it the count of all rows. -/
def Token.endsCount : Token → Bool
  | comma | closeParen | parens | doubleColon => true
  | _ => false

theorem countFollows_text (h : t.WholeBefore r) : countFollows (t.text ++ r) = t.endsCount := by
  cases t with
  | word w =>
    obtain ⟨c, w', rfl, hc⟩ := exists_cons_word h
    simp [Token.text, countFollows, Token.endsCount, hc ',' (by decide), hc ')' (by decide),
      hc '(' (by decide), hc ':' (by decide)]
  | openParen =>
    obtain rfl | ⟨d, r, rfl, hd⟩ := nil_or_cons_of_head?_ne h
    · rfl
    · simp [Token.text, countFollows, Token.endsCount, hd]
  | colon =>
    obtain rfl | ⟨d, r, rfl, hd⟩ := nil_or_cons_of_head?_ne h
    · rfl
    · simp [Token.text, countFollows, Token.endsCount, hd]
  | _ => rfl

/-- An opening parenthesis stands in both texts. The closing one may be part of the same token. -/
theorem openParen_apart (h : Apart cs cs') {s : List Char} (hopen : openParen cs = .ok s) :
    ∃ s', openParen cs' = .ok s' ∧ Apart s s' := by
  have hskip : openParen (skipLayout cs') = openParen cs' := by
    rw [openParen, openParen, Text.skipLayout_skipLayout]
  obtain ⟨rfl, -⟩ | ⟨t, r, r', rfl, hfirst, hwhole, hwhole', hrest⟩ := h.cases
  · exact absurd hopen (by simp [openParen])
  · rw [← hskip, hfirst]
    unfold openParen at hopen ⊢
    rw [skipLayout_text hwhole] at hopen
    rw [skipLayout_text hwhole']
    cases t with
    | word w =>
      obtain ⟨c, w', rfl, hc⟩ := exists_cons_word hwhole
      simp [Token.text, hc '(' (by decide)] at hopen
    | openParen =>
      obtain rfl : r = s := Except.ok.inj hopen
      exact ⟨r', rfl, hrest⟩
    | parens =>
      obtain rfl : ')' :: r = s := Except.ok.inj hopen
      exact ⟨')' :: r', rfl, .text (t := .closeParen) trivial hrest⟩
    | _ => exact absurd hopen (by simp [Token.text])

theorem closeParen_apart (h : Apart cs cs') {s : List Char} (hclose : closeParen cs = .ok s) :
    ∃ s', closeParen cs' = .ok s' ∧ Apart s s' := by
  have hskip : closeParen (skipLayout cs') = closeParen cs' := by
    rw [closeParen, closeParen, Text.skipLayout_skipLayout]
  obtain ⟨rfl, -⟩ | ⟨t, r, r', rfl, hfirst, hwhole, hwhole', hrest⟩ := h.cases
  · exact absurd hclose (by simp [closeParen])
  · rw [← hskip, hfirst]
    unfold closeParen at hclose ⊢
    rw [skipLayout_text hwhole] at hclose
    rw [skipLayout_text hwhole']
    cases t with
    | word w =>
      obtain ⟨c, w', rfl, hc⟩ := exists_cons_word hwhole
      simp [Token.text, hc ')' (by decide)] at hclose
    | closeParen =>
      obtain rfl : r = s := Except.ok.inj hclose
      exact ⟨r', rfl, hrest⟩
    | _ => exact absurd hclose (by simp [Token.text])

end ResourceQuery.Select
