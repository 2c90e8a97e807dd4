import Mathlib
import ResourceQuery.Window

/-! # Orders, written and read

An order that is written term by term, with commas between the terms, is read term by term
(`parse_written_order`). Blanks may stand around a term, and pieces of nothing but blanks may stand between
the commas anywhere; neither says anything. A term is its column and then, after points, the words of what it
says about the direction and about nulls (`OrderTerm.text`); since no column has a point, the words that are
read are those that were written, and each sets its own part of the term (`ofChars_text`). -/

namespace ResourceQuery

namespace OrderTerm

/-! ## A term -/

/-- A direction, after a point. -/
def directionText : Option Direction → List Char
  | none => []
  | some d => '.' :: d.word.toList

/-- A place for nulls, after a point. -/
def nullsText : Option Bool → List Char
  | none => []
  | some true => '.' :: "nullsfirst".toList
  | some false => '.' :: "nullslast".toList

/-- **A term as it is written.** -/
def text (t : OrderTerm) : List Char := t.column.toList ++ directionText t.direction ++ nullsText t.nullsFirst

/-- **What can be written**: a text without blanks at its ends, whose column ends at no comma and no point. -/
structure Writable (t : OrderTerm) : Prop where
  no_comma : ',' ∉ t.column.toList
  no_point : '.' ∉ t.column.toList
  ne_nil : t.text ≠ []
  trimmed : Text.Trimmed t.text

theorem ofChars_append {column : List Char} (h : '.' ∉ column) (rest : List Char) :
    ofChars (column ++ '.' :: rest) =
      (Text.splitOn '.' rest).foldl modify ⟨String.ofList column, none, none⟩ := by
  rw [ofChars, Text.splitOn_append h]

/-- **A term is read back.** -/
theorem ofChars_text {t : OrderTerm} (h : '.' ∉ t.column.toList) : ofChars t.text = t := by
  obtain ⟨column, direction, nullsFirst⟩ := t
  rw [text, List.append_assoc]
  rcases direction with _ | direction
  · rcases nullsFirst with _ | first
    · simp [ofChars, directionText, nullsText, Text.splitOn_of_not_mem h]
    · cases first <;> rw [directionText, nullsText, List.nil_append, ofChars_append h, String.ofList_toList] <;>
        rfl
  · rw [directionText, List.cons_append, ofChars_append h, String.ofList_toList]
    cases direction <;> rcases nullsFirst with _ | (_ | _) <;> rfl

theorem comma_not_mem_text {t : OrderTerm} (h : ',' ∉ t.column.toList) : ',' ∉ t.text := by
  have hdirection : ',' ∉ directionText t.direction := by
    rcases t.direction with _ | (_ | _) <;> decide
  have hnulls : ',' ∉ nullsText t.nullsFirst := by
    rcases t.nullsFirst with _ | (_ | _) <;> decide
  simp [text, h, hdirection, hnulls]

end OrderTerm

namespace Order

/-! ## The pieces of an order -/

/-- **Pieces that say these terms**: a term with blanks around it, or nothing but blanks. -/
inductive Written : List (List Char) → List OrderTerm → Prop where
  | nil : Written [] []
  | blank {piece : List Char} {pieces : List (List Char)} {ts : List OrderTerm}
      (hpiece : ∀ c ∈ piece, Text.isBlank c = true) (h : Written pieces ts) : Written (piece :: pieces) ts
  | term {t : OrderTerm} {before after : List Char} {pieces : List (List Char)} {ts : List OrderTerm}
      (ht : t.Writable) (hbefore : ∀ c ∈ before, Text.isBlank c = true)
      (hafter : ∀ c ∈ after, Text.isBlank c = true) (h : Written pieces ts) :
      Written ((before ++ t.text ++ after) :: pieces) (t :: ts)

theorem comma_not_mem_blank {cs : List Char} (h : ∀ c ∈ cs, Text.isBlank c = true) : ',' ∉ cs :=
  fun hc => absurd (h ',' hc) (by decide)

theorem Written.comma_not_mem {pieces : List (List Char)} {ts : List OrderTerm} (h : Written pieces ts) :
    ∀ piece ∈ pieces, ',' ∉ piece := by
  induction h with
  | nil => simp
  | blank hpiece _ ih => exact List.forall_mem_cons.mpr ⟨comma_not_mem_blank hpiece, ih⟩
  | term ht hbefore hafter _ ih =>
    refine List.forall_mem_cons.mpr ⟨?_, ih⟩
    simp [comma_not_mem_blank hbefore, comma_not_mem_blank hafter,
      OrderTerm.comma_not_mem_text ht.no_comma]

theorem Written.map_ofChars {pieces : List (List Char)} {ts : List OrderTerm} (h : Written pieces ts) :
    ((pieces.map Text.trim).filter (· ≠ [])).map OrderTerm.ofChars = ts := by
  induction h with
  | nil => rfl
  | blank hpiece _ ih => rwa [List.map_cons, Text.trim_of_forall hpiece, List.filter_cons_of_neg (by simp)]
  | term ht hbefore hafter _ ih =>
    rw [List.map_cons, Text.trim_append hbefore hafter ht.trimmed,
      List.filter_cons_of_pos (by simpa using ht.ne_nil), List.map_cons, ih,
      OrderTerm.ofChars_text ht.no_point]

theorem terms_joinWith {pieces : List (List Char)} {ts : List OrderTerm} (h : Written pieces ts) :
    terms (Text.joinWith [','] pieces) = ts := by
  by_cases hne : pieces = []
  · subst hne
    cases h
    rfl
  · rw [terms, Text.splitOn_joinWith hne h.comma_not_mem, h.map_ofChars]

/-- **An order that was written is read back**, term by term; without a term there is none, and never an
empty one. -/
theorem parse_written_order :
    (∀ (pieces : List (List Char)) (ts : List OrderTerm), Written pieces ts →
      parse (String.ofList (Text.joinWith [','] pieces)) = if ts = [] then none else some ts) ∧
    ∀ s : String, parse s ≠ some [] := by
  refine ⟨fun pieces ts h => ?_, fun s => ?_⟩
  · rw [parse, String.toList_ofList, terms_joinWith h]
    cases ts <;> rfl
  · unfold parse
    split <;> simp

/-- Blanks around the terms, blank pieces, a term without a direction, and one without a column. -/
theorem parse_written_order_blanks :
    let pieces : List (List Char) := [" ".toList, "price.desc.nullslast ".toList, [], "\tname".toList,
      ".asc".toList]
    let ts : List OrderTerm :=
      [⟨"price", some .desc, some false⟩, ⟨"name", none, none⟩, ⟨"", some .asc, none⟩]
    Written pieces ts ∧ parse (String.ofList (Text.joinWith [','] pieces)) = some ts := by
  intro pieces ts
  have hprice : OrderTerm.Writable ⟨"price", some .desc, some false⟩ :=
    ⟨by decide, by decide, by decide, by decide⟩
  have hname : OrderTerm.Writable ⟨"name", none, none⟩ :=
    ⟨by decide, by decide, by decide, by decide⟩
  have hasc : OrderTerm.Writable ⟨"", some .asc, none⟩ :=
    ⟨by decide, by decide, by decide, by decide⟩
  have hspace : ∀ c ∈ [' '], Text.isBlank c = true := by simp [Text.isBlank]
  have htab : ∀ c ∈ ['\t'], Text.isBlank c = true := by simp [Text.isBlank]
  have hnone : ∀ c ∈ ([] : List Char), Text.isBlank c = true := by simp
  have h : Written pieces ts :=
    .blank hspace (.term hprice hnone hspace (.blank hnone (.term hname htab hnone
      (.term hasc hnone hnone .nil))))
  exact ⟨h, parse_written_order.1 pieces ts h⟩

end Order

end ResourceQuery
