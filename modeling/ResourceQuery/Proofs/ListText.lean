import Mathlib
import ResourceQuery.ListLiteral

/-! # Lists of values, written and read

A list that is written item by item, with commas between the items and brackets around them, is read item by
item (`parse_written`). A quoted item says any text, in a list for `in` any without a quote; a bare one is a
scalar. Only the last item may not be bare and empty, since a comma at the end adds nothing.

What is in the brackets may be anything: each turn of the loop takes an item and at least one character off
the front (`exists_items_eq_cons`), so the loop ends and a text that is not empty has an item. -/

namespace ResourceQuery.ListLiteral

/-- **An item as it is written**: between quotes, or as the text of a scalar. -/
inductive ListItem where
  | quoted (s : String)
  | bare (text : String)
deriving DecidableEq, Repr

namespace ListItem

/-- A character between quotes, with a backslash before it where it would be taken for a mark. -/
def escape : Quoting → Char → List Char
  | .verbatim, c => [c]
  | .escaped, c => if c = '\\' ∨ c = '"' then ['\\', c] else [c]

/-- The text of an item. -/
def text (q : Quoting) : ListItem → List Char
  | quoted s => '"' :: (s.toList.flatMap (escape q) ++ ['"'])
  | bare t => t.toList

/-- What an item says. -/
def value : ListItem → Json
  | quoted s => .str s
  | bare t => Scalar.coerce t

/-- **An item that can be written** between commas. -/
def Writable (q : Quoting) : ListItem → Prop
  | quoted s => q = .verbatim → '"' ∉ s.toList
  | bare t => ',' ∉ t.toList ∧ t.toList.head? ≠ some '"'

instance (q : Quoting) (i : ListItem) : Decidable (i.Writable q) := by
  cases i <;> unfold Writable <;> infer_instance

end ListItem

/-- The items with commas between them. -/
def listText (q : Quoting) (is : List ListItem) : List Char :=
  Text.joinWith [','] (is.map (ListItem.text q))

/-- **A list for `in`, written.** -/
def writeIn (is : List ListItem) : String := String.ofList ('(' :: (listText .verbatim is ++ [')']))

/-- **An array, written.** -/
def writeArray (is : List ListItem) : String :=
  String.ofList ('\x7b' :: (listText .escaped is ++ ['\x7d']))

/-! ## One item -/

theorem verbatimText_append {s : List Char} (h : '"' ∉ s) (rest : List Char) :
    verbatimText (s ++ '"' :: rest) = (s, rest) := by
  induction s with
  | nil => simp [verbatimText]
  | cons c s ih =>
    have hc : c ≠ '"' := fun hc => h (by simp [hc])
    simp [verbatimText, hc, ih fun hs => h (List.mem_cons_of_mem c hs)]

/-- **Escapes are undone.** -/
theorem escapedText_append (s rest : List Char) :
    escapedText (s.flatMap (ListItem.escape .escaped) ++ '"' :: rest) = (s, rest) := by
  induction s with
  | nil => cases rest <;> simp [escapedText]
  | cons c s ih =>
    by_cases hc : c = '\\' ∨ c = '"'
    · have hslash : ('\\' : Char) ≠ '"' := by decide
      simp [ListItem.escape, hc, escapedText, hslash, ih]
    · -- the character stands for itself, and what follows it is not empty
      obtain ⟨d, cs, hcs⟩ := List.exists_cons_of_ne_nil
        (show s.flatMap (ListItem.escape .escaped) ++ '"' :: rest ≠ [] by simp)
      obtain ⟨hslash, hquote⟩ := not_or.mp hc
      rw [List.flatMap_cons, ListItem.escape, if_neg hc, List.append_assoc, List.singleton_append, hcs,
        escapedText, if_neg hquote, if_neg hslash, ← hcs, ih]
      rfl

theorem quotedText_append {q : Quoting} {s : String} (h : (ListItem.quoted s).Writable q)
    (rest : List Char) :
    quotedText q (s.toList.flatMap (ListItem.escape q) ++ '"' :: rest) = (s.toList, rest) := by
  cases q with
  | verbatim =>
    have hid : s.toList.flatMap (ListItem.escape .verbatim) = s.toList := List.flatMap_singleton' _
    rw [hid]
    exact verbatimText_append (h rfl) rest
  | escaped => exact escapedText_append s.toList rest

/-- **What follows an item**: a comma, or nothing. -/
def EndsItem (rest : List Char) : Prop := ∀ c ∈ rest.head?, c = ','

theorem bareText_append {t rest : List Char} (h : ',' ∉ t) (hrest : EndsItem rest) :
    bareText (t ++ rest) = (t, rest) := by
  induction t with
  | nil =>
    cases rest with
    | nil => rfl
    | cons c rest => simp [bareText, hrest c rfl]
  | cons c t ih =>
    have hc : c ≠ ',' := fun hc => h (by simp [hc])
    simp [bareText, hc, ih fun ht => h (List.mem_cons_of_mem c ht)]

/-- **An item is read back**, unless nothing of it is there. -/
theorem items_text_append {q : Quoting} {i : ListItem} (h : i.Writable q) {rest : List Char}
    (hrest : EndsItem rest) (hne : i.text q ++ rest ≠ []) :
    items q (i.text q ++ rest) = i.value :: items q (dropComma rest) := by
  cases i with
  | quoted s =>
    have htext : (ListItem.quoted s).text q ++ rest =
        '"' :: (s.toList.flatMap (ListItem.escape q) ++ '"' :: rest) := by
      simp [ListItem.text]
    rw [htext, items_cons_quote, quotedText_append h]
    simp only [String.ofList_toList, ListItem.value]
  | bare t =>
    obtain ⟨hcomma, hquote⟩ := h
    have hbare : bareText (t.toList ++ rest) = (t.toList, rest) := bareText_append hcomma hrest
    obtain ⟨c, r, hc⟩ := List.exists_cons_of_ne_nil hne
    have hstart : c ≠ '"' := by
      rintro rfl
      cases ht : t.toList with
      | nil =>
        rw [ListItem.text, ht, List.nil_append] at hc
        exact absurd (hrest '"' (by simp [hc])) (by decide)
      | cons d ds =>
        rw [ListItem.text, ht, List.cons_append, List.cons.injEq] at hc
        exact hquote (by rw [ht, hc.1]; rfl)
    rw [hc, items_cons_bare q hstart, ← hc, ListItem.text, hbare]
    simp only [Scalar.ofChars, String.ofList_toList, ListItem.value]

/-! ## Whole lists -/

theorem items_listText {q : Quoting} {is : List ListItem} (h : ∀ i ∈ is, i.Writable q)
    (hlast : is.getLast? ≠ some (.bare "")) : items q (listText q is) = is.map ListItem.value := by
  induction is with
  | nil => exact items_nil q
  | cons i is ih =>
    cases is with
    | nil =>
      have hne : i.text q ≠ [] := by
        cases i with
        | quoted s => simp [ListItem.text]
        | bare t =>
          intro ht
          obtain rfl : t = "" := String.toList_eq_nil_iff.mp ht
          exact hlast rfl
      have hitem : items q (i.text q ++ []) = i.value :: items q (dropComma []) :=
        items_text_append (h i List.mem_cons_self) (by simp [EndsItem]) (by simpa using hne)
      rw [List.append_nil] at hitem
      rw [listText, List.map_cons, List.map_nil, Text.joinWith, hitem, dropComma, items_nil]
      · rfl
      · simp
    | cons j js =>
      have ih := ih (fun k hk => h k (List.mem_cons_of_mem i hk)) (by simpa using hlast)
      have htext : listText q (i :: j :: js) = i.text q ++ ',' :: listText q (j :: js) := by
        rw [listText, List.map_cons, Text.joinWith_cons_of_ne_nil _ _ (by simp), List.append_assoc]
        rfl
      rw [htext, items_text_append (h i List.mem_cons_self) (by simp [EndsItem]) (by simp), dropComma, ih]
      rfl

theorem unwrap_append (opening closing : Char) (cs : List Char) :
    unwrap opening closing (opening :: (cs ++ [closing])) = cs := by
  have hlead : Text.dropLead? [opening] (opening :: (cs ++ [closing])) = some (cs ++ [closing]) :=
    Text.dropLead?_append [opening] _
  have htail : Text.dropTail? [closing] (cs ++ [closing]) = some cs := Text.dropTail?_eq_some.mpr rfl
  rw [unwrap, hlead, Option.bind_some, htail, Option.getD_some]

/-! ## Any text -/

theorem verbatimText_suffix (cs : List Char) : (verbatimText cs).2 <:+ cs := by
  induction cs with
  | nil => exact List.suffix_refl _
  | cons c cs ih =>
    unfold verbatimText
    split
    · exact List.suffix_cons c cs
    · exact ih.trans (List.suffix_cons c cs)

theorem escapedText_suffix (cs : List Char) : (escapedText cs).2 <:+ cs := by
  fun_induction escapedText cs with
  | case1 => exact List.suffix_refl _
  | case2 => exact List.suffix_cons _ _
  | case3 => exact List.nil_suffix
  | case4 => exact List.suffix_cons _ _
  | case5 d cs _ ih => exact ih.trans ((List.suffix_cons d cs).trans (List.suffix_cons _ _))
  | case6 c d cs _ _ ih => exact ih.trans (List.suffix_cons c _)

theorem bareText_suffix (cs : List Char) : (bareText cs).2 <:+ cs := by
  induction cs with
  | nil => exact List.suffix_refl _
  | cons c cs ih =>
    unfold bareText
    split
    · exact List.suffix_refl _
    · exact ih.trans (List.suffix_cons c cs)

theorem dropComma_suffix (cs : List Char) : dropComma cs <:+ cs := by
  unfold dropComma
  split
  · exact List.suffix_cons _ _
  · exact List.suffix_refl _

theorem exists_append_of_suffix {cs rest : List Char} (h : rest <:+ cs)
    (hlength : rest.length < cs.length) : ∃ taken, cs = taken ++ rest ∧ taken ≠ [] := by
  obtain ⟨taken, rfl⟩ := h
  refine ⟨taken, rfl, ?_⟩
  rintro rfl
  simp at hlength

/-- **Each turn takes an item, and at least one character**, whatever the text. -/
theorem exists_items_eq_cons (q : Quoting) {cs : List Char} (h : cs ≠ []) :
    ∃ item taken rest, cs = taken ++ rest ∧ taken ≠ [] ∧ items q cs = item :: items q rest := by
  obtain ⟨c, cs, rfl⟩ := List.exists_cons_of_ne_nil h
  by_cases hc : c = '"'
  · subst hc
    have hsuffix : (quotedText q cs).2 <:+ cs := by
      cases q with
      | verbatim => exact verbatimText_suffix cs
      | escaped => exact escapedText_suffix cs
    have hrest := (dropComma_suffix _).trans hsuffix
    obtain ⟨taken, htaken, hne⟩ := exists_append_of_suffix (hrest.trans (List.suffix_cons '"' cs))
      (Nat.lt_succ_of_le hrest.length_le)
    exact ⟨_, taken, _, htaken, hne, items_cons_quote q cs⟩
  · have hrest := (dropComma_suffix _).trans (bareText_suffix (c :: cs))
    obtain ⟨taken, htaken, hne⟩ := exists_append_of_suffix hrest (length_dropComma_bareText c cs)
    exact ⟨_, taken, _, htaken, hne, items_cons_bare q hc cs⟩

/-- **A list that was written is read back**, item by item: a quoted item as its text, a bare one as a scalar.
Whatever else stands in the brackets is taken apart to its end, and has an item if it is not empty. -/
theorem parse_written :
    (∀ is : List ListItem, (∀ i ∈ is, i.Writable .verbatim) → is.getLast? ≠ some (.bare "") →
      parseIn (writeIn is) = is.map ListItem.value) ∧
    (∀ is : List ListItem, (∀ i ∈ is, i.Writable .escaped) → is.getLast? ≠ some (.bare "") →
      parseArray (writeArray is) = is.map ListItem.value) ∧
    (∀ (q : Quoting) (cs : List Char), cs ≠ [] →
      ∃ item taken rest, cs = taken ++ rest ∧ taken ≠ [] ∧ items q cs = item :: items q rest) ∧
    (∀ s : String, unwrap '(' ')' s.toList ≠ [] → parseIn s ≠ []) ∧
    ∀ s : String, unwrap '\x7b' '\x7d' s.toList ≠ [] → parseArray s ≠ [] := by
  refine ⟨fun is h hlast => ?_, fun is h hlast => ?_, fun q cs h => exists_items_eq_cons q h,
    fun s h => items_ne_nil .verbatim h, fun s h => items_ne_nil .escaped h⟩
  · rw [parseIn, writeIn, String.toList_ofList, unwrap_append, items_listText h hlast]
  · rw [parseArray, writeArray, String.toList_ofList, unwrap_append, items_listText h hlast]

/-- Commas and brackets inside quotes, a backslash at the end of a quoted item, an empty item, and a number
with blanks around it. -/
theorem parse_written_marks :
    let is : List ListItem := [.quoted "a,)b\\", .bare "", .bare " 5 ", .quoted "\"\\"]
    (∀ i ∈ is, i.Writable .escaped) ∧ is.getLast? ≠ some (.bare "") ∧
      parseArray (writeArray is) = [.str "a,)b\\", .str "", .int 5, .str "\"\\"] := by
  intro is
  have h : ∀ i ∈ is, i.Writable .escaped := by decide
  have hlast : is.getLast? ≠ some (.bare "") := by decide
  have hvalues : is.map ListItem.value = [.str "a,)b\\", .str "", .int 5, .str "\"\\"] := by cbv
  exact ⟨h, hlast, (parse_written.2.1 is h hlast).trans hvalues⟩

end ResourceQuery.ListLiteral
