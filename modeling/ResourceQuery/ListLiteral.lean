import ResourceQuery.Scalar
import ResourceQuery.Text.Split

/-! # Lists of values

The operand of `in` is a list `(1,"a,b",3)`, that of a containment an array `{1,2,3}`; the outer
brackets may be missing. Items are separated by commas. An item that starts with a double quote runs to
the next one, or to the end of the text, and is taken as it is; in an array a backslash inside it takes
the next character as it is. Any other item runs to the next comma and is a scalar.

After a quoted item the comma may be missing: what follows the closing quote is the next item. A comma
at the end adds nothing.

* `items_cons_quote`, `items_cons_bare`: one item at a time.
* `items_ne_nil`: a text that is not empty has an item. -/

namespace ResourceQuery.ListLiteral

/-- Whether a backslash in a quoted item takes the next character as it is. -/
inductive Quoting where
  | verbatim
  | escaped
deriving DecidableEq

/-- A quoted item with escapes, after its opening quote, and the rest. A backslash that ends the text
stands for itself. -/
def escapedText : List Char → List Char × List Char
  | [] => ([], [])
  | [c] => if c = '"' then ([], []) else ([c], [])
  | c :: d :: cs =>
    if c = '"' then ([], d :: cs)
    else if c = '\\' then (escapedText cs).map (d :: ·) id
    else (escapedText (d :: cs)).map (c :: ·) id

/-- A quoted item without escapes, after its opening quote, and the rest. -/
def verbatimText : List Char → List Char × List Char
  | [] => ([], [])
  | c :: cs => if c = '"' then ([], cs) else (verbatimText cs).map (c :: ·) id

/-- A quoted item after its opening quote, and the rest. -/
def quotedText : Quoting → List Char → List Char × List Char
  | .verbatim => verbatimText
  | .escaped => escapedText

/-- A bare item, and the rest. -/
def bareText : List Char → List Char × List Char
  | [] => ([], [])
  | c :: cs => if c = ',' then ([], c :: cs) else (bareText cs).map (c :: ·) id

/-- The text after a comma, if it starts with one. -/
def dropComma : List Char → List Char
  | ',' :: cs => cs
  | cs => cs

theorem length_escapedText (cs : List Char) : (escapedText cs).2.length ≤ cs.length := by
  fun_induction escapedText cs <;> simp_all <;> omega

theorem length_verbatimText (cs : List Char) : (verbatimText cs).2.length ≤ cs.length := by
  fun_induction verbatimText cs <;> simp_all
  omega

theorem length_quotedText (q : Quoting) (cs : List Char) :
    (quotedText q cs).2.length ≤ cs.length := by
  cases q
  · exact length_verbatimText cs
  · exact length_escapedText cs

theorem length_bareText (cs : List Char) : (bareText cs).2.length ≤ cs.length := by
  fun_induction bareText cs <;> simp_all
  omega

theorem length_dropComma (cs : List Char) : (dropComma cs).length ≤ cs.length := by
  unfold dropComma
  split <;> simp

theorem length_dropComma_bareText (c : Char) (cs : List Char) :
    (dropComma (bareText (c :: cs)).2).length < (c :: cs).length := by
  by_cases hc : c = ','
  · simp [bareText, hc, dropComma]
  · have h1 := length_bareText cs
    have h2 := length_dropComma (bareText cs).2
    simp only [bareText, hc, if_false, Prod.map_snd, id, List.length_cons]
    omega

/-- **The items of a list**, without its brackets. -/
def items (q : Quoting) : List Char → List Json
  | [] => []
  | c :: cs =>
    if c = '"' then
      .str (String.ofList (quotedText q cs).1) :: items q (dropComma (quotedText q cs).2)
    else
      Scalar.ofChars (bareText (c :: cs)).1 :: items q (dropComma (bareText (c :: cs)).2)
termination_by cs => cs.length
decreasing_by
  · have h1 := length_quotedText q cs
    have h2 := length_dropComma (quotedText q cs).2
    simp only [List.length_cons]
    omega
  · exact length_dropComma_bareText c cs

/-- The text inside a pair of brackets, if it stands in one. -/
def unwrap (opening closing : Char) (cs : List Char) : List Char :=
  ((Text.dropLead? [opening] cs).bind (Text.dropTail? [closing])).getD cs

/-- **A list for `in`**: `(1,"a,b",3)`. -/
def parseIn (s : String) : List Json := items .verbatim (unwrap '(' ')' s.toList)

/-- **An array**: `{1,"a\"b",3}`. -/
def parseArray (s : String) : List Json := items .escaped (unwrap '\x7b' '\x7d' s.toList)

/-! ## One item at a time -/

theorem items_nil (q : Quoting) : items q [] = [] := by simp [items]

theorem items_cons_quote (q : Quoting) (cs : List Char) :
    items q ('"' :: cs) =
      .str (String.ofList (quotedText q cs).1) :: items q (dropComma (quotedText q cs).2) := by
  rw [items, if_pos rfl]

theorem items_cons_bare (q : Quoting) {c : Char} (hc : c ≠ '"') (cs : List Char) :
    items q (c :: cs) =
      Scalar.ofChars (bareText (c :: cs)).1 :: items q (dropComma (bareText (c :: cs)).2) := by
  rw [items, if_neg hc]

theorem items_ne_nil (q : Quoting) {cs : List Char} (h : cs ≠ []) : items q cs ≠ [] := by
  cases cs with
  | nil => exact absurd rfl h
  | cons c cs =>
    by_cases hc : c = '"'
    · rw [hc, items_cons_quote]; simp
    · rw [items_cons_bare q hc]; simp

end ResourceQuery.ListLiteral
