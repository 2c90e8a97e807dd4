import ResourceQuery.Number.Binary64

/-! # Decimal numerals

A numeral is an optional sign, digits with at most one point among or around them, and an optional
power of ten: `[+-]?([0-9]+(\.[0-9]*)?|\.[0-9]+)([eE][+-]?[0-9]+)?`. `parse?` reads the whole text or
fails; `toBinary64?` rounds the exact value once.

* `span_digits_append`: the digits before a character that is none. -/

namespace ResourceQuery

/-- The value of a run of decimal digits. -/
def digitsValue (ds : List Char) : Nat := ds.foldl (fun n d => 10 * n + (d.toNat - 48)) 0

/-- Whether a whole number fits 64 bits with a sign: from `-2 ^ 63` to `2 ^ 63 - 1`. -/
def fitsInt64 (n : Int) : Bool := -9223372036854775808 ≤ n && n ≤ 9223372036854775807

/-- Whether a natural number fits 64 bits: it is below `2 ^ 64`. -/
def fitsUInt64 (n : Nat) : Bool := n < 18446744073709551616

/-- The digits a text starts with, and the rest. -/
def spanDigits (cs : List Char) : List Char × List Char :=
  (cs.takeWhile Char.isDigit, cs.dropWhile Char.isDigit)

/-- An optional sign: whether it is a minus, and the rest. -/
def spanSign : List Char → Bool × List Char
  | '-' :: cs => (true, cs)
  | '+' :: cs => (false, cs)
  | cs => (false, cs)

/-- **A numeral**, `± significand * 10 ^ exponent`; it is integral if it has neither a point nor a power
of ten. -/
structure Decimal where
  negative : Bool
  significand : Nat
  exponent : Int
  integral : Bool
deriving DecidableEq, Repr

namespace Decimal

/-- The power of ten that ends a numeral, zero if there is none; the whole text must be used. -/
def power? : List Char → Option Int
  | [] => some 0
  | c :: cs =>
    if c = 'e' ∨ c = 'E' then
      let s := spanSign cs
      let d := spanDigits s.2
      if d.1 = [] ∨ d.2 ≠ [] then none
      else some (if s.1 then -(digitsValue d.1 : Int) else (digitsValue d.1 : Int))
    else none

/-- What follows the sign. -/
def unsigned? (negative : Bool) (cs : List Char) : Option Decimal :=
  let w := spanDigits cs
  match w.2 with
  | '.' :: r =>
    let f := spanDigits r
    if w.1 = [] ∧ f.1 = [] then none
    else (power? f.2).map fun p =>
      ⟨negative, digitsValue (w.1 ++ f.1), p - (f.1.length : Int), false⟩
  | r =>
    if w.1 = [] then none
    else (power? r).map fun p => ⟨negative, digitsValue w.1, p, r.isEmpty⟩

/-- **The numeral that a text is**, read to its end. -/
def parse? (cs : List Char) : Option Decimal :=
  let s := spanSign cs
  unsigned? s.1 s.2

/-- The value of an integral numeral. -/
def toInt (d : Decimal) : Int := if d.negative then -(d.significand : Int) else (d.significand : Int)

/-- **The nearest double**, unless that is out of range. Powers of ten far outside the range of the
doubles are not worked out. -/
def toBinary64? (d : Decimal) : Option Binary64 :=
  if d.significand = 0 then some (Binary64.zero d.negative)
  else if 400 < d.exponent then none
  else if d.exponent + (d.significand.log2 : Int) + 1 < -400 then some (Binary64.zero d.negative)
  else Binary64.ofRatio d.negative (d.significand * Nat.pow 10 d.exponent.toNat)
    (Nat.pow 10 (-d.exponent).toNat)

end Decimal

/-! ## Digits -/

theorem span_digits_append {ds rest : List Char} (hd : ∀ c ∈ ds, c.isDigit = true)
    (hr : ∀ c ∈ rest.head?, c.isDigit = false) : spanDigits (ds ++ rest) = (ds, rest) := by
  induction ds with
  | nil =>
    cases rest with
    | nil => rfl
    | cons c rest => simp [spanDigits, hr c (by simp)]
  | cons d ds ih =>
    have ih := ih fun c hc => hd c (by simp [hc])
    simp only [spanDigits, Prod.mk.injEq] at ih
    simp [spanDigits, hd d (by simp), ih.1, ih.2]

theorem spanDigits_append_eq (cs : List Char) : (spanDigits cs).1 ++ (spanDigits cs).2 = cs :=
  List.takeWhile_append_dropWhile

end ResourceQuery
