import Mathlib
import ResourceQuery.Proofs.Filter.Words

/-! # Where an operator's word ends

A value is cut at its first point, before anything is known of the word. A word without a point is cut where
it ends, so the value is read as that word's operator with the text after it, whatever stands there. The
only words with a point are text searches with one in their configuration. They are cut inside their
parentheses, and what is left there is no word (`eq_none_of_cut`).

* `parse_operator_append`: both cases, for a value as it stands and for its negation. -/

namespace ResourceQuery

namespace OperatorToken

theorem Spells.close_mem {cs : List Char} {token : OperatorToken} (h : Spells cs token) (hopen : '(' ∈ cs) :
    ')' ∈ cs := by
  cases h with
  | @comparison word c h =>
    have hword : IsFilterWord word := Or.inr (Or.inl (by simp [h]))
    exact absurd hopen (hword.not_mem (by decide))
  | quantified h q => exact List.mem_append_right _ q.close_mem_argument
  | @textSearch word kind h =>
    have hword : IsFilterWord word := Or.inr (Or.inr (by simp [h]))
    exact absurd hopen (hword.not_mem (by decide))
  | configured => simp

/-- **A word with a point** is a text search with the point in its configuration. -/
theorem Spells.configured_of_point {cs : List Char} {token : OperatorToken} (h : Spells cs token)
    (hpoint : '.' ∈ cs) : ∃ word kind config, SearchKind.ofToken? word = some kind ∧ '.' ∈ config ∧
      ')' ∉ config ∧ cs = word.toList ++ '(' :: config ++ [')'] ∧
      token = .textSearch kind (some (String.ofList config)) := by
  have hplain : ∀ {word : String}, IsFilterWord word → '.' ∉ word.toList :=
    fun hword => hword.not_mem (by decide)
  cases h with
  | @comparison word c h => exact absurd hpoint (hplain (Or.inr (Or.inl (by simp [h]))))
  | @quantified word c h q =>
    have hlooks : LooksLikeFilter (word.toList ++ q.argument) :=
      ⟨word, some q, Or.inr (Or.inl (by simp [h])), rfl⟩
    exact absurd hpoint hlooks.not_mem
  | @textSearch word kind h => exact absurd hpoint (hplain (Or.inr (Or.inr (by simp [h]))))
  | @configured word kind config h hne hclose hq =>
    have hword : '.' ∉ word.toList := hplain (Or.inr (Or.inr (by simp [h])))
    exact ⟨word, kind, config, h, by simpa [hword] using hpoint, hclose, rfl, rfl⟩

/-- **A word that is cut at a point is none**: a parenthesis is left open. -/
theorem Spells.eq_none_of_cut {cs lead rest : List Char} {token : OperatorToken} (h : Spells cs token)
    (hcs : cs = lead ++ '.' :: rest) (hlead : '.' ∉ lead) : '(' ∈ lead ∧ ofChars? lead = none := by
  obtain ⟨word, kind, config, hkind, hpoint, hclose, rfl, rfl⟩ := h.configured_of_point (by simp [hcs])
  obtain ⟨config₁, config₂, rfl, hfirst⟩ := List.eq_append_cons_of_mem hpoint
  have hword : IsFilterWord word := Or.inr (Or.inr (by simp [hkind]))
  have hcut : lead = word.toList ++ '(' :: config₁ := by
    refine FilterValue.lead_unique hlead (s := config₂ ++ [')']) ?_ (by simpa using hcs.symm)
    have hpoint : '.' ∉ word.toList := hword.not_mem (by decide)
    simp [hpoint, hfirst]
  have hopen : '(' ∈ lead := by simp [hcut]
  refine ⟨hopen, Option.eq_none_iff_forall_ne_some.mpr fun token' htoken => ?_⟩
  have hmem := (ofChars?_eq_some.mp htoken).close_mem hopen
  have hnot : ')' ∉ word.toList := hword.not_mem (by decide)
  rw [hcut] at hmem
  simp only [List.mem_append, hnot, List.mem_cons, false_or] at hmem
  rcases hmem with hmem | hmem
  · exact absurd hmem (by decide)
  · exact hclose (by simp [hmem])

end OperatorToken

namespace FilterValue

theorem split_append {lead : List Char} (h : '.' ∉ lead) (rest : List Char) :
    split (lead ++ '.' :: rest) = (lead, rest) := by
  rw [split, Text.splitOnce_append h, Option.getD_some]

theorem ofChars_append {lead : List Char} (hpoint : '.' ∉ lead) (hnot : lead ≠ "not".toList)
    (rest : List Char) : ofChars (lead ++ '.' :: rest) = read false (lead ++ '.' :: rest) := by
  unfold ofChars
  cases h : Text.dropLead? notMark (lead ++ '.' :: rest) with
  | none => rfl
  | some body =>
    have hlead : lead ++ '.' :: rest = notMark ++ body := Text.dropLead?_eq_some.mp h
    exact absurd (lead_unique hpoint (b := "not".toList) (by decide) hlead) hnot

theorem ofChars_notMark (cs : List Char) : ofChars (notMark ++ cs) = read true cs := by
  unfold ofChars
  rw [Text.dropLead?_append]

variable {lead : List Char} {token : OperatorToken}

theorem read_of_spells (h : OperatorToken.Spells lead token) (hpoint : '.' ∉ lead) (negate : Bool)
    (raw : String) : read negate (lead ++ '.' :: raw.toList) =
      .ok (if negate then negated token raw else plain token raw) := by
  unfold read
  simp only [split_append hpoint, OperatorToken.ofChars?_eq_some.mpr h, String.ofList_toList]

theorem ne_not_of_spells (h : OperatorToken.Spells lead token) : lead ≠ "not".toList := by
  rintro rfl
  have hnone : OperatorToken.ofChars? "not".toList = none := by decide
  rw [OperatorToken.ofChars?_eq_some.mpr h] at hnone
  exact absurd hnone (by simp)

theorem negated_eq (token : OperatorToken) (raw : String) : negated token raw =
    if token = .comparison .inList then [(.notIn, operand token raw)]
    else [(.not, .negated [(token.operator, operand token raw)])] := by
  unfold negated
  split_ifs with h
  · subst h
    rfl
  · rfl

/-- **A word without a point is read with exactly the text after it**, and so is its negation. A word with a
point, which is that of a text search's configuration, is cut there, and both are refused with what stands
before it. -/
theorem parse_operator_append {t : String} (h : OperatorToken.parse? t = some token) (raw : String) :
    ('.' ∉ t.toList →
      parse (t ++ "." ++ raw) = .ok [(token.operator, operand token raw)] ∧
      parse ("not." ++ t ++ "." ++ raw) = .ok (if token = .comparison .inList
        then [(.notIn, operand token raw)]
        else [(.not, .negated [(token.operator, operand token raw)])])) ∧
    ∀ lead rest, t.toList = lead ++ '.' :: rest → '.' ∉ lead →
      (∃ kind config, token = .textSearch kind (some config) ∧ '.' ∈ config.toList) ∧
      parse (t ++ "." ++ raw) = .error (.unknownOperator (String.ofList lead)) ∧
      parse ("not." ++ t ++ "." ++ raw) = .error (.unknownOperator (String.ofList lead)) := by
  have hspells : OperatorToken.Spells t.toList token := OperatorToken.ofChars?_eq_some.mp h
  have hvalue : (t ++ "." ++ raw).toList = t.toList ++ '.' :: raw.toList := by simp
  have hnegated : ("not." ++ t ++ "." ++ raw).toList = notMark ++ (t.toList ++ '.' :: raw.toList) := by
    simp [notMark]
  unfold parse
  rw [hvalue, hnegated, ofChars_notMark]
  constructor
  · intro hpoint
    rw [ofChars_append hpoint (ne_not_of_spells hspells), read_of_spells hspells hpoint,
      read_of_spells hspells hpoint, ← negated_eq]
    exact ⟨rfl, rfl⟩
  · intro lead rest ht hlead
    obtain ⟨hopen, hnone⟩ := hspells.eq_none_of_cut ht hlead
    have hnot : lead ≠ "not".toList := by
      rintro rfl
      exact absurd hopen (by decide)
    have hrefused : ∀ negate, read negate (lead ++ '.' :: (rest ++ '.' :: raw.toList)) =
        .error (.unknownOperator (String.ofList lead)) := by
      intro negate
      unfold read
      simp only [split_append hlead, hnone]
    obtain ⟨word, kind, config, -, hpoint, -, -, htoken⟩ := hspells.configured_of_point (by simp [ht])
    rw [ht, List.append_assoc, List.cons_append, ofChars_append hlead hnot, hrefused, hrefused]
    exact ⟨⟨kind, String.ofList config, htoken, by simpa using hpoint⟩, rfl, rfl⟩

/-- A configuration without a point before a text that looks like a negation, a list that is negated, and a
configuration with a point. -/
theorem parse_operator_append_configured :
    (OperatorToken.parse? "wfts(a[1])" = some (.textSearch (some .websearch) (some "a[1]")) ∧
      parse ("wfts(a[1])" ++ "." ++ "not.x)") =
        .ok [(.textSearch, .textSearch ⟨"not.x)", some .websearch, some "a[1]"⟩)]) ∧
    (OperatorToken.parse? "in" = some (.comparison .inList) ∧
      parse ("not." ++ "in" ++ "." ++ "(x.1,y)") =
        .ok [(.notIn, operand (.comparison .inList) "(x.1,y)")]) ∧
    OperatorToken.parse? "plfts(pg.en)" = some (.textSearch (some .plain) (some "pg.en")) ∧
      parse ("not." ++ "plfts(pg.en)" ++ "." ++ "x") = .error (.unknownOperator "plfts(pg") := by
  have hsearch : OperatorToken.parse? "wfts(a[1])" =
      some (.textSearch (some .websearch) (some "a[1]")) := by decide
  have hin : OperatorToken.parse? "in" = some (.comparison .inList) := by decide
  have hpointed : OperatorToken.parse? "plfts(pg.en)" =
      some (.textSearch (some .plain) (some "pg.en")) := by decide
  have hcut := (parse_operator_append hpointed "x").2 "plfts(pg".toList "en)".toList (by decide) (by decide)
  rw [String.ofList_toList] at hcut
  exact ⟨⟨hsearch, ((parse_operator_append hsearch "not.x)").1 (by decide)).1⟩,
    ⟨hin, ((parse_operator_append hin "(x.1,y)").1 (by decide)).2⟩, hpointed, hcut.2.2⟩

/-- A configuration with a point names an operator, and is refused before a text. -/
theorem refuses_pointed_configuration :
    OperatorToken.parse? "fts(pg.en)" = some (.textSearch none (some "pg.en")) ∧
      parse ("fts(pg.en)" ++ "." ++ "x") = .error (.unknownOperator "fts(pg") :=
  ⟨by decide, by cbv⟩

end FilterValue

end ResourceQuery
