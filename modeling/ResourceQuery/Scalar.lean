import ResourceQuery.Json.Basic
import ResourceQuery.Number.Decimal
import ResourceQuery.Text.Blank

/-! # Scalars in a query string

What the text of a single value means: `null`, `true` and `false` are JSON's; a numeral, blanks around
it ignored, is a number; all else is the text itself, blanks included.

A numeral of an optional sign and digits is the whole number it says if that fits 64 bits. Any other
numeral is rounded to a double, and a double that is a whole number of that range is written as one,
so `1e3` is `1000`. A numeral beyond the doubles stays text. -/

namespace ResourceQuery.Scalar

/-- A double, as a whole number where it is one that fits. -/
def ofBinary64 (x : Binary64) : Json :=
  match x.toInt? with
  | some n => if fitsInt64 n then .int n else .double x
  | none => .double x

/-- The number that a numeral means. -/
def ofDecimal (d : Decimal) : Option Json :=
  if d.integral ∧ fitsInt64 d.toInt then some (.int d.toInt) else d.toBinary64?.map ofBinary64

/-- The number that a text is, blanks around it ignored. -/
def number? (cs : List Char) : Option Json := (Decimal.parse? (Text.trim cs)).bind ofDecimal

/-- **The meaning of a text.** -/
def coerce (s : String) : Json :=
  if s = "null" then .null
  else if s = "true" then .bool true
  else if s = "false" then .bool false
  else (number? s.toList).getD (.str s)

/-- The same of characters. -/
def ofChars (cs : List Char) : Json := coerce (String.ofList cs)

/-! ## Texts that are no numbers -/

theorem coerce_eq_str {s : String} (hn : s ≠ "null") (ht : s ≠ "true") (hf : s ≠ "false")
    (h : Decimal.parse? (Text.trim s.toList) = none) : coerce s = .str s := by
  simp [coerce, hn, ht, hf, number?, h]

end ResourceQuery.Scalar
