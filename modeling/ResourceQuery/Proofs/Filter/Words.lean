import Mathlib.Data.List.TakeWhile
import Mathlib.Tactic.SplitIfs
import ResourceQuery.Proofs.Filter.Values

/-! # The words of the filter language

A word that names an operator is one of a fixed list, alone or with an argument in parentheses: a comparison
with a quantifier, or a text search with its configuration (`ofChars?_eq_some`). The quick look at a value
(`looksLikeFilter`) knows the same words and `not`, each alone or with a quantifier, and nothing else
(`looksLikeFilter_iff`).

So the two agree on values with a point (`FilterValue.exists_parse_iff`), but for a text search with its
configuration, which can be read and does not look like a filter, and for values that mislead: after `not.`
nothing is looked at, and a quantifier is taken for one after any of the words. -/

namespace ResourceQuery

/-! ## Plain words -/

/-- **A word for a comparison or a text search.** -/
def IsOperatorWord (word : String) : Prop :=
  (Comparison.ofToken? word).isSome ∨ (SearchKind.ofToken? word).isSome

theorem isWordChar_of_isSome_comparison {word : String} (h : (Comparison.ofToken? word).isSome) :
    word.toList ≠ [] ∧ ∀ c ∈ word.toList, Text.isWordChar c = true := by
  have htokens : ∀ e ∈ Comparison.tokens, e.1.toList ≠ [] ∧ e.1.toList.all Text.isWordChar = true := by
    decide
  obtain ⟨c, hc⟩ := Option.isSome_iff_exists.mp h
  exact (htokens _ (Entries.mem_of_get? hc)).imp_right List.all_eq_true.mp

theorem isWordChar_of_isSome_search {word : String} (h : (SearchKind.ofToken? word).isSome) :
    word.toList ≠ [] ∧ ∀ c ∈ word.toList, Text.isWordChar c = true := by
  have htokens : ∀ e ∈ SearchKind.tokens, e.1.toList ≠ [] ∧ e.1.toList.all Text.isWordChar = true := by
    decide
  obtain ⟨kind, hkind⟩ := Option.isSome_iff_exists.mp h
  exact (htokens _ (Entries.mem_of_get? hkind)).imp_right List.all_eq_true.mp

theorem ofToken?_search_of_comparison {word : String} (h : (Comparison.ofToken? word).isSome) :
    SearchKind.ofToken? word = none := by
  have htokens : ∀ e ∈ Comparison.tokens, SearchKind.ofToken? e.1 = none := by decide
  obtain ⟨c, hc⟩ := Option.isSome_iff_exists.mp h
  exact htokens _ (Entries.mem_of_get? hc)

/-- A quantifier with its parentheses. -/
def Quantifier.argument : Quantifier → List Char
  | any => "(any)".toList
  | all => "(all)".toList

/-! ## Words with arguments -/

namespace OperatorToken

/-- **The characters that spell an operator's word.** -/
inductive Spells : List Char → OperatorToken → Prop where
  | comparison {word : String} {c : Comparison} (h : Comparison.ofToken? word = some c) :
      Spells word.toList (.comparison c)
  | quantified {word : String} {c : Comparison} (h : Comparison.ofToken? word = some c) (q : Quantifier) :
      Spells (word.toList ++ q.argument) (.quantified c q)
  | textSearch {word : String} {kind : Option SearchKind} (h : SearchKind.ofToken? word = some kind) :
      Spells word.toList (.textSearch kind none)
  | configured {word : String} {kind : Option SearchKind} {config : List Char}
      (h : SearchKind.ofToken? word = some kind) (hne : config ≠ []) (hclose : ')' ∉ config)
      (hq : Quantifier.ofArgument? (String.ofList config) = none) :
      Spells (word.toList ++ '(' :: config ++ [')']) (.textSearch kind (some (String.ofList config)))

theorem split?_word {word : List Char} (hne : word ≠ []) (hword : ∀ c ∈ word, Text.isWordChar c = true) :
    split? word = some (String.ofList word, none) := by
  have hstop : ∀ c ∈ ([] : List Char).head?, Text.isWordChar c = false := by simp
  have hspan : Text.spanWord word = (word, []) := by simpa using Text.spanWord_append hword hstop
  simp [split?, hspan, hne]

theorem split?_argument {word arg : List Char} (hne : word ≠ [])
    (hword : ∀ c ∈ word, Text.isWordChar c = true) (harg : arg ≠ []) (hclose : ')' ∉ arg) :
    split? (word ++ '(' :: arg ++ [')']) = some (String.ofList word, some (String.ofList arg)) := by
  have hspan : Text.spanWord (word ++ '(' :: (arg ++ [')'])) = (word, '(' :: (arg ++ [')'])) :=
    Text.spanWord_append hword (by simp [show Text.isWordChar '(' = false by decide])
  have hall : ∀ c ∈ arg, (c != ')') = true := by
    intro c hc
    simpa using fun h : c = ')' => hclose (h ▸ hc)
  have htake : (arg ++ [')']).takeWhile (· != ')') = arg := by
    rw [List.takeWhile_append_of_pos hall]
    simp
  have hdrop : (arg ++ [')']).dropWhile (· != ')') = [')'] := by
    rw [List.dropWhile_append_of_pos hall]
    simp
  rw [List.append_assoc, List.cons_append]
  unfold split?
  simp only [hspan, if_neg hne, htake, hdrop]
  simp [harg]

theorem eq_of_split? {cs : List Char} {word : String} {arg : Option String}
    (h : split? cs = some (word, arg)) :
    (arg = none ∧ cs = word.toList) ∨
      ∃ a : List Char, arg = some (String.ofList a) ∧ cs = word.toList ++ '(' :: a ++ [')'] ∧
        a ≠ [] ∧ ')' ∉ a := by
  have hcs := Text.spanWord_append_eq cs
  unfold split? at h
  dsimp only at h
  split_ifs at h
  split at h
  · rename_i hrest
    obtain ⟨rfl, rfl⟩ := Prod.mk.inj (Option.some.inj h)
    rw [hrest, List.append_nil] at hcs
    exact Or.inl ⟨rfl, by rw [String.toList_ofList, hcs]⟩
  · rename_i r hrest
    split_ifs at h with hbad
    obtain ⟨rfl, rfl⟩ := Prod.mk.inj (Option.some.inj h)
    obtain ⟨hne, hdrop⟩ := not_or.mp hbad
    have hr : r.takeWhile (· != ')') ++ r.dropWhile (· != ')') = r := List.takeWhile_append_dropWhile
    rw [not_not.mp hdrop] at hr
    have hclose : ')' ∉ r.takeWhile (· != ')') := by
      intro hmem
      have hother := List.mem_takeWhile_imp hmem
      simp at hother
    refine Or.inr ⟨_, rfl, ?_, hne, hclose⟩
    rw [String.toList_ofList, List.append_assoc, List.cons_append, hr, ← hrest, hcs]
  · simp at h

theorem ofArgument?_argument (q : Quantifier) :
    ∃ arg : List Char, q.argument = '(' :: arg ++ [')'] ∧ arg ≠ [] ∧ ')' ∉ arg ∧
      Quantifier.ofArgument? (String.ofList arg) = some q := by
  cases q
  · exact ⟨"any".toList, by decide⟩
  · exact ⟨"all".toList, by decide⟩

theorem argument_of_ofArgument? {arg : List Char} {q : Quantifier}
    (h : Quantifier.ofArgument? (String.ofList arg) = some q) : '(' :: arg ++ [')'] = q.argument := by
  have harg : ∀ {word : String}, String.ofList arg = word → arg = word.toList :=
    fun hword => by rw [← hword, String.toList_ofList]
  unfold Quantifier.ofArgument? at h
  split_ifs at h with hany hall
  · obtain rfl := Option.some.inj h
    rw [harg hany]
    rfl
  · obtain rfl := Option.some.inj h
    rw [harg hall]
    rfl

/-- **The words that name operators**, and no others. -/
theorem ofChars?_eq_some {cs : List Char} {token : OperatorToken} :
    ofChars? cs = some token ↔ Spells cs token := by
  constructor
  · intro h
    obtain ⟨⟨word, arg⟩, hsplit, hresolve⟩ := Option.bind_eq_some_iff.mp h
    dsimp only [resolve?] at hresolve
    rcases eq_of_split? hsplit with ⟨rfl, rfl⟩ | ⟨a, rfl, rfl, hne, hclose⟩
    · rw [Option.bind_none] at hresolve
      cases hkind : SearchKind.ofToken? word with
      | some kind =>
        rw [hkind] at hresolve
        obtain rfl := Option.some.inj hresolve
        exact .textSearch hkind
      | none =>
        rw [hkind] at hresolve
        obtain ⟨c, hc, rfl⟩ := Option.map_eq_some_iff.mp hresolve
        exact .comparison hc
    · rw [Option.bind_some] at hresolve
      cases hq : Quantifier.ofArgument? (String.ofList a) with
      | some q =>
        rw [hq] at hresolve
        obtain ⟨c, hc, rfl⟩ := Option.map_eq_some_iff.mp hresolve
        rw [List.append_assoc, argument_of_ofArgument? hq]
        exact .quantified hc q
      | none =>
        rw [hq] at hresolve
        cases hkind : SearchKind.ofToken? word with
        | none => simp [hkind] at hresolve
        | some kind =>
          simp only [hkind, Option.some.injEq] at hresolve
          subst hresolve
          exact .configured hkind hne hclose hq
  · intro h
    unfold ofChars?
    cases h with
    | @comparison word c hc =>
      have hsome : (Comparison.ofToken? word).isSome := by simp [hc]
      obtain ⟨hne, hword⟩ := isWordChar_of_isSome_comparison hsome
      rw [split?_word hne hword]
      simp [resolve?, ofToken?_search_of_comparison hsome, hc]
    | @quantified word c hc q =>
      have hsome : (Comparison.ofToken? word).isSome := by simp [hc]
      obtain ⟨hne, hword⟩ := isWordChar_of_isSome_comparison hsome
      obtain ⟨arg, harg, hargne, hclose, hq⟩ := ofArgument?_argument q
      rw [harg, ← List.append_assoc, split?_argument hne hword hargne hclose]
      simp [resolve?, hq, hc]
    | @textSearch word kind hkind =>
      have hsome : (SearchKind.ofToken? word).isSome := by simp [hkind]
      obtain ⟨hne, hword⟩ := isWordChar_of_isSome_search hsome
      rw [split?_word hne hword]
      simp [resolve?, hkind]
    | @configured word kind config hkind hconfig hclose hq =>
      have hsome : (SearchKind.ofToken? word).isSome := by simp [hkind]
      obtain ⟨hne, hword⟩ := isWordChar_of_isSome_search hsome
      rw [split?_argument hne hword hconfig hclose]
      simp [resolve?, hq, hkind]

end OperatorToken

/-! ## The quick look -/

/-- **A word that a filter may start with.** -/
def IsFilterWord (word : String) : Prop := word = "not" ∨ IsOperatorWord word

theorem IsFilterWord.isWordChar {word : String} (h : IsFilterWord word) :
    word.toList ≠ [] ∧ ∀ c ∈ word.toList, Text.isWordChar c = true := by
  rcases h with rfl | hsome | hsome
  · exact ⟨by decide, List.all_eq_true.mp (by decide)⟩
  · exact isWordChar_of_isSome_comparison hsome
  · exact isWordChar_of_isSome_search hsome

theorem IsFilterWord.not_mem {word : String} (h : IsFilterWord word) {c : Char}
    (hc : Text.isWordChar c = false) : c ∉ word.toList := by
  intro hmem
  rw [h.isWordChar.2 c hmem] at hc
  exact Bool.noConfusion hc

/-- A quantifier as it is written after a word, or none. -/
def Quantifier.written : Option Quantifier → List Char
  | none => []
  | some q => q.argument

theorem Quantifier.not_mem_written (q : Option Quantifier) : '.' ∉ written q := by
  cases q with
  | none => simp [written]
  | some q => cases q <;> decide

theorem Quantifier.close_mem_argument (q : Quantifier) : ')' ∈ q.argument := by cases q <;> decide

/-- A text before a point that looks like a filter. -/
def LooksLikeFilter (lead : List Char) : Prop :=
  ∃ word q, IsFilterWord word ∧ lead = word.toList ++ Quantifier.written q

theorem LooksLikeFilter.not_mem {lead : List Char} (h : LooksLikeFilter lead) : '.' ∉ lead := by
  obtain ⟨word, q, hword, rfl⟩ := h
  rw [List.mem_append, not_or]
  exact ⟨hword.not_mem (by decide), Quantifier.not_mem_written q⟩

/-- A text before a point without the quantifier at its end. -/
def unquantified (lead : List Char) : List Char :=
  match Text.dropTail? "(any)".toList lead with
  | some word => word
  | none => (Text.dropTail? "(all)".toList lead).getD lead

theorem unquantified_append_written (lead : List Char) :
    ∃ q, lead = unquantified lead ++ Quantifier.written q := by
  unfold unquantified
  cases hany : Text.dropTail? "(any)".toList lead with
  | some word => exact ⟨some .any, Text.dropTail?_eq_some.mp hany⟩
  | none =>
    cases hall : Text.dropTail? "(all)".toList lead with
    | some word => exact ⟨some .all, Text.dropTail?_eq_some.mp hall⟩
    | none => exact ⟨none, (List.append_nil lead).symm⟩

theorem unquantified_append {word : List Char} (hword : ')' ∉ word) (q : Option Quantifier) :
    unquantified (word ++ Quantifier.written q) = word := by
  have hplain : ∀ q : Quantifier, Text.dropTail? q.argument word = none := by
    intro q
    rw [Option.eq_none_iff_forall_ne_some]
    intro rest h
    have hmem : ')' ∈ rest ++ q.argument := List.mem_append_right _ q.close_mem_argument
    rw [← Text.dropTail?_eq_some.mp h] at hmem
    exact hword hmem
  unfold unquantified
  cases q with
  | none =>
    have hany : Text.dropTail? "(any)".toList word = none := hplain .any
    have hall : Text.dropTail? "(all)".toList word = none := hplain .all
    rw [Quantifier.written, List.append_nil, hany, hall]
    rfl
  | some q =>
    cases q with
    | any =>
      have hany : Text.dropTail? "(any)".toList (word ++ Quantifier.written (some .any)) = some word :=
        Text.dropTail?_eq_some.mpr rfl
      rw [hany]
    | all =>
      have hany : Text.dropTail? "(any)".toList (word ++ Quantifier.written (some .all)) = none := by
        rw [Option.eq_none_iff_forall_ne_some]
        intro rest h
        -- the two quantifiers are of one length, and differ
        have hlength : (Quantifier.written (some .all)).length = "(any)".toList.length := by decide
        have heq := (List.append_inj' (Text.dropTail?_eq_some.mp h) hlength).2
        exact absurd heq (by decide)
      have hall : Text.dropTail? "(all)".toList (word ++ Quantifier.written (some .all)) = some word :=
        Text.dropTail?_eq_some.mpr rfl
      rw [hany, hall]
      rfl

theorem IsFilterWord.unique {word word' : String} {q q' : Option Quantifier} (hword : IsFilterWord word)
    (hword' : IsFilterWord word')
    (h : word.toList ++ Quantifier.written q = word'.toList ++ Quantifier.written q') :
    word = word' ∧ q = q' := by
  have hwords := congrArg unquantified h
  rw [unquantified_append (hword.not_mem (by decide)), unquantified_append (hword'.not_mem (by decide))]
    at hwords
  rw [hwords] at h
  have hwritten := List.append_cancel_left h
  refine ⟨String.toList_inj.mp hwords, ?_⟩
  rcases q with _ | _ | _ <;> rcases q' with _ | _ | _ <;> first | rfl | exact absurd hwritten (by decide)

/-- **What looks like a filter**: a word that a filter may start with, with a quantifier or none, and then a
point. -/
theorem looksLikeFilter_iff {value : String} : looksLikeFilter value = true ↔
    ∃ lead rest, value.toList = lead ++ '.' :: rest ∧ LooksLikeFilter lead := by
  have hword : ∀ word, (word == "not" || (Comparison.ofToken? word).isSome ||
      (SearchKind.ofToken? word).isSome) = true ↔ IsFilterWord word := by
    intro word
    rw [Bool.or_eq_true, Bool.or_eq_true, beq_iff_eq, or_assoc]
    exact Iff.rfl
  have hlead : ∀ lead rest, value.toList = lead ++ '.' :: rest → '.' ∉ lead →
      (looksLikeFilter value = true ↔ IsFilterWord (String.ofList (unquantified lead))) := by
    intro lead rest hvalue hpoint
    unfold looksLikeFilter
    rw [hvalue, Text.splitOnce_append hpoint]
    exact hword _
  constructor
  · intro h
    cases hsplit : Text.splitOnce '.' value.toList with
    | none => simp [looksLikeFilter, hsplit] at h
    | some p =>
      obtain ⟨lead, rest⟩ := p
      obtain ⟨hvalue, hpoint⟩ := Text.splitOnce_eq_some.mp hsplit
      obtain ⟨q, hq⟩ := unquantified_append_written lead
      have hfilter := (hlead lead rest hvalue hpoint).mp h
      exact ⟨lead, rest, hvalue, _, q, hfilter, by rwa [String.toList_ofList]⟩
  · rintro ⟨lead, rest, hvalue, hlooks⟩
    have hpoint := hlooks.not_mem
    obtain ⟨word, q, hfilter, rfl⟩ := hlooks
    rw [hlead _ rest hvalue hpoint, unquantified_append (hfilter.not_mem (by decide)), String.ofList_toList]
    exact hfilter

/-! ## Where reading and looking differ -/

/-- A text before a point with a quantifier after a word that takes none. -/
def Overquantified (lead : List Char) : Prop :=
  ∃ first q, (first = "not" ∨ (SearchKind.ofToken? first).isSome) ∧
    lead = first.toList ++ Quantifier.written (some q)

theorem IsFilterWord.not_overquantified {word : String} (h : IsFilterWord word) :
    ¬ Overquantified word.toList := by
  rintro ⟨first, q, hfirst, hlead⟩
  have hunique : word = first ∧ none = some q :=
    h.unique (hfirst.imp_right Or.inr) ((List.append_nil _).trans hlead)
  exact absurd hunique.2 (by simp)

theorem not_overquantified_comparison {word : String} (h : (Comparison.ofToken? word).isSome)
    (q : Quantifier) : ¬ Overquantified (word.toList ++ q.argument) := by
  rintro ⟨first, q', hfirst, hlead⟩
  have hword : IsFilterWord word := Or.inr (Or.inl h)
  have hunique : word = first ∧ some q = some q' := hword.unique (hfirst.imp_right Or.inr) hlead
  obtain rfl := hunique.1
  rcases hfirst with rfl | hkind
  · exact absurd h (by decide)
  · simp [ofToken?_search_of_comparison h] at hkind

/-- **A word that names an operator looks like a filter**, but for a text search with its configuration. -/
theorem OperatorToken.looksLikeFilter_of_spells {lead : List Char} {token : OperatorToken}
    (h : Spells lead token) :
    (LooksLikeFilter lead ∧ ¬ Overquantified lead) ∨ ∃ word config, (SearchKind.ofToken? word).isSome ∧
      config ≠ [] ∧ ')' ∉ config ∧ Quantifier.ofArgument? (String.ofList config) = none ∧
      lead = word.toList ++ '(' :: config ++ [')'] := by
  have alone : ∀ {w : String}, IsFilterWord w → LooksLikeFilter w.toList ∧ ¬ Overquantified w.toList :=
    fun {w} hword => ⟨⟨w, none, hword, (List.append_nil _).symm⟩, hword.not_overquantified⟩
  cases h with
  | comparison h => exact Or.inl (alone (Or.inr (Or.inl (by simp [h]))))
  | textSearch h => exact Or.inl (alone (Or.inr (Or.inr (by simp [h]))))
  | @quantified w c h q =>
    have hsome : (Comparison.ofToken? w).isSome := by simp [h]
    exact Or.inl ⟨⟨w, some q, Or.inr (Or.inl hsome), rfl⟩, not_overquantified_comparison hsome q⟩
  | @configured w kind config h hne hclose hq =>
    exact Or.inr ⟨w, config, by simp [h], hne, hclose, hq, rfl⟩

/-- **What looks like a filter names an operator**, but for `not` and for words with a quantifier that take
none. -/
theorem LooksLikeFilter.exists_spells {lead : List Char} (h : LooksLikeFilter lead)
    (hquantified : ¬ Overquantified lead) (hnot : lead ≠ "not".toList) :
    ∃ token, OperatorToken.Spells lead token := by
  obtain ⟨w, q, hword, rfl⟩ := h
  rcases hword with rfl | hcomparison | hkind
  · cases q with
    | none => exact absurd rfl hnot
    | some q => exact absurd ⟨"not", q, Or.inl rfl, rfl⟩ hquantified
  · obtain ⟨c, hc⟩ := Option.isSome_iff_exists.mp hcomparison
    cases q with
    | none =>
      rw [Quantifier.written, List.append_nil]
      exact ⟨_, .comparison hc⟩
    | some q => exact ⟨_, .quantified hc q⟩
  · obtain ⟨kind, hkind'⟩ := Option.isSome_iff_exists.mp hkind
    cases q with
    | none =>
      rw [Quantifier.written, List.append_nil]
      exact ⟨_, .textSearch hkind'⟩
    | some q => exact absurd ⟨w, q, Or.inr hkind, rfl⟩ hquantified

namespace FilterValue

/-- **A text search with its configuration.** -/
def Configured (value : String) : Prop :=
  ∃ word config rest, (SearchKind.ofToken? word).isSome ∧ config ≠ [] ∧ ')' ∉ config ∧ '.' ∉ config ∧
    Quantifier.ofArgument? (String.ofList config) = none ∧
    value.toList = word.toList ++ '(' :: config ++ [')'] ++ '.' :: rest

/-- **A value that looks like a filter and is none**: `not.` with a word that names no operator, or a
quantifier after `not` or after the word for a text search. -/
inductive Misleads (value : String) : Prop where
  | negated (h : isNegated value.toList = true) (hword : OperatorToken.ofChars? (word value) = none)
  | quantified {first : String} (q : Quantifier) {rest : List Char}
      (hfirst : first = "not" ∨ (SearchKind.ofToken? first).isSome)
      (h : value.toList = first.toList ++ q.argument ++ '.' :: rest)

theorem isNegated_iff {cs : List Char} : isNegated cs = true ↔ ∃ rest, cs = "not".toList ++ '.' :: rest := by
  unfold isNegated
  rw [Option.isSome_iff_exists]
  exact exists_congr fun rest => Text.dropLead?_eq_some

theorem lead_unique {a b r s : List Char} (ha : '.' ∉ a) (hb : '.' ∉ b)
    (h : a ++ '.' :: r = b ++ '.' :: s) : a = b := by
  have hsplit := Text.splitOnce_append (b := r) ha
  rw [h, Text.splitOnce_append hb] at hsplit
  exact (Prod.mk.inj (Option.some.inj hsplit)).1.symm

theorem exists_parse_iff_token {value : String} :
    (∃ ops, parse value = .ok ops) ↔ ∃ token, OperatorToken.ofChars? (word value) = some token := by
  constructor
  · rintro ⟨ops, h⟩
    obtain ⟨token, htoken, -⟩ := parse_eq_ok.mp h
    exact ⟨token, htoken⟩
  · rintro ⟨token, htoken⟩
    exact ⟨_, parse_eq_ok.mpr ⟨token, htoken, rfl⟩⟩

variable {value : String} {lead rest : List Char}

theorem word_eq_lead (hvalue : value.toList = lead ++ '.' :: rest) (hpoint : '.' ∉ lead)
    (hn : isNegated value.toList = false) : word value = lead := by
  have hbody : body value.toList = value.toList := by
    unfold isNegated at hn
    rw [body, Option.not_isSome_iff_eq_none.mp (Bool.eq_false_iff.mp hn), Option.getD_none]
  rw [word, hbody, hvalue, split, Text.splitOnce_append hpoint]
  rfl

theorem misleads_iff_of_negated (hn : isNegated value.toList = true) :
    Misleads value ↔ OperatorToken.ofChars? (word value) = none := by
  refine ⟨fun h => ?_, .negated hn⟩
  cases h with
  | negated _ hword => exact hword
  | @quantified first q _ hfirst h =>
    obtain ⟨rest, hvalue⟩ := isNegated_iff.mp hn
    have hfilter : IsFilterWord first := hfirst.imp_right Or.inr
    have hlooks : LooksLikeFilter (first.toList ++ q.argument) := ⟨first, some q, hfilter, rfl⟩
    have hlead := lead_unique (by decide) hlooks.not_mem (hvalue.symm.trans h)
    have hunique : "not" = first ∧ none = some q := IsFilterWord.unique (Or.inl rfl) hfilter hlead
    exact absurd hunique.2 (by simp)

/-- A value that is not negated misleads by a quantifier after a word that takes none. -/
theorem misleads_iff_of_plain (hn : isNegated value.toList = false)
    (hvalue : value.toList = lead ++ '.' :: rest) (hpoint : '.' ∉ lead) :
    Misleads value ↔ Overquantified lead := by
  constructor
  · intro h
    cases h with
    | negated hnot => simp [hn] at hnot
    | @quantified first q _ hfirst h =>
      have hlooks : LooksLikeFilter (first.toList ++ q.argument) :=
        ⟨first, some q, hfirst.imp_right Or.inr, rfl⟩
      exact ⟨first, q, hfirst, lead_unique hpoint hlooks.not_mem (hvalue.symm.trans h)⟩
  · rintro ⟨first, q, hfirst, hlead⟩
    exact .quantified q hfirst (by rw [hvalue, hlead]; rfl)

theorem looksLikeFilter_of_misleads (h : Misleads value) : looksLikeFilter value = true := by
  rw [looksLikeFilter_iff]
  cases h with
  | negated hnot _ =>
    obtain ⟨rest, hvalue⟩ := isNegated_iff.mp hnot
    exact ⟨_, rest, hvalue, "not", none, Or.inl rfl, rfl⟩
  | quantified q hfirst hvalue => exact ⟨_, _, hvalue, _, some q, hfirst.imp_right Or.inr, rfl⟩

/-- **Which values with a point are read**: those that look like a filter and do not mislead, and text
searches with their configuration, of which nothing is said here. -/
theorem exists_parse_iff (hvalue : value.toList = lead ++ '.' :: rest) (hpoint : '.' ∉ lead)
    (hsearch : ¬ Configured value) :
    (∃ ops, parse value = .ok ops) ↔ LooksLikeFilter lead ∧ ¬ Misleads value := by
  rw [exists_parse_iff_token]
  cases hn : isNegated value.toList with
  | true =>
    obtain ⟨rest', hnot⟩ := isNegated_iff.mp hn
    obtain rfl := lead_unique hpoint (by decide) (hvalue.symm.trans hnot)
    have hlooks : LooksLikeFilter "not".toList := ⟨"not", none, Or.inl rfl, rfl⟩
    rw [misleads_iff_of_negated hn, and_iff_right hlooks, ← ne_eq, Option.ne_none_iff_exists']
  | false =>
    rw [word_eq_lead hvalue hpoint hn, misleads_iff_of_plain hn hvalue hpoint]
    simp only [OperatorToken.ofChars?_eq_some]
    constructor
    · rintro ⟨token, hspells⟩
      rcases OperatorToken.looksLikeFilter_of_spells hspells with h | ⟨w, config, hw, hne, hclose, hq, rfl⟩
      · exact h
      · have hconfig : '.' ∉ config := fun hmem => hpoint (by simp [hmem])
        exact absurd ⟨w, config, rest, hw, hne, hclose, hconfig, hq, hvalue⟩ hsearch
    · rintro ⟨hlooks, hquantified⟩
      refine hlooks.exists_spells hquantified ?_
      rintro rfl
      exact absurd (isNegated_iff.mpr ⟨rest, hvalue⟩) (by simp [hn])

theorem looksLikeFilter_of_parse {ops : OperatorMap} (hpoint : '.' ∈ value.toList)
    (hsearch : ¬ Configured value) (h : parse value = .ok ops) : looksLikeFilter value = true := by
  obtain ⟨lead, rest, hvalue, hlead⟩ := List.eq_append_cons_of_mem hpoint
  have hfilter := ((exists_parse_iff hvalue hlead hsearch).mp ⟨ops, h⟩).1
  exact looksLikeFilter_iff.mpr ⟨lead, rest, hvalue, hfilter⟩

theorem not_configured_of_looksLikeFilter (h : looksLikeFilter value = true) : ¬ Configured value := by
  rintro ⟨first, config, rest, hfirst, hne, hclose, hconfig, hq, hvalue⟩
  obtain ⟨lead, rest', hlead, hlooks⟩ := looksLikeFilter_iff.mp h
  obtain ⟨hnil, hword⟩ := isWordChar_of_isSome_search hfirst
  have hpoint : '.' ∉ first.toList ++ '(' :: config ++ [')'] := by
    have hnot : '.' ∉ first.toList := IsFilterWord.not_mem (Or.inr (Or.inr hfirst)) (by decide)
    simp [hnot, hconfig]
  obtain rfl := lead_unique hpoint hlooks.not_mem (hvalue.symm.trans hlead)
  obtain ⟨word, q, hfilter, heq⟩ := hlooks
  cases q with
  | none =>
    rw [Quantifier.written, List.append_nil] at heq
    have hopen : '(' ∉ word.toList := hfilter.not_mem (by decide)
    rw [← heq] at hopen
    simp at hopen
  | some q =>
    -- the argument is the same, whichever way it is read
    obtain ⟨arg, harg, hargne, hargclose, hquantifier⟩ := OperatorToken.ofArgument?_argument q
    have hsplit := OperatorToken.split?_argument hnil hword hne hclose
    have hsplit' := OperatorToken.split?_argument hfilter.isWordChar.1 hfilter.isWordChar.2 hargne hargclose
    rw [heq, Quantifier.written, harg, ← List.append_assoc] at hsplit
    rw [hsplit', Option.some.injEq, Prod.mk.injEq, Option.some.injEq] at hsplit
    rw [hsplit.2, hq] at hquantifier
    simp at hquantifier

end FilterValue

end ResourceQuery
