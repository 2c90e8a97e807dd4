/-! # Bare words

The characters that need no quotes in a select list, and of which the words of the filter language
consist: ASCII letters, digits and the underscore. -/

namespace ResourceQuery.Text

/-- An ASCII letter, a digit or an underscore. -/
def isWordChar (c : Char) : Bool := c.isAlphanum || c == '_'

/-- The word a text starts with, and the rest. -/
def spanWord (cs : List Char) : List Char × List Char :=
  (cs.takeWhile isWordChar, cs.dropWhile isWordChar)

theorem spanWord_append {w rest : List Char} (hw : ∀ c ∈ w, isWordChar c = true)
    (hr : ∀ c ∈ rest.head?, isWordChar c = false) : spanWord (w ++ rest) = (w, rest) := by
  induction w with
  | nil =>
    cases rest with
    | nil => rfl
    | cons c rest => simp [spanWord, hr c (by simp)]
  | cons d w ih =>
    have ih := ih fun c hc => hw c (by simp [hc])
    simp only [spanWord, Prod.mk.injEq] at ih
    simp [spanWord, hw d (by simp), ih.1, ih.2]

theorem spanWord_append_cons {c : Char} (hc : isWordChar c = false) (cs r : List Char) :
    spanWord (cs ++ c :: r) = ((spanWord cs).1, (spanWord cs).2 ++ c :: r) := by
  induction cs with
  | nil => simp [spanWord, hc]
  | cons d cs ih =>
    cases hd : isWordChar d with
    | false => simp [spanWord, hd]
    | true =>
      simp only [spanWord, Prod.mk.injEq] at ih
      simp [spanWord, hd, ih.1, ih.2]

theorem spanWord_append_eq (cs : List Char) : (spanWord cs).1 ++ (spanWord cs).2 = cs :=
  List.takeWhile_append_dropWhile

end ResourceQuery.Text
