import ResourceQuery.Json.Basic
import ResourceQuery.Number.Decimal
import ResourceQuery.Number.Shortest

/-! # Numbers in JSON text

**Reading.** A numeral without a point and without a power of ten is a whole number if it lies in the
range of the 64-bit integers, signed or not. Every other numeral is a double, and so is `-0`. A double
is read by scaling: as many leading digits as fit 64 bits are rounded to a double, which is then
multiplied or divided by a rounded power of ten; digits that no longer fit count only as powers of
ten. A value out of range is refused, one that is too small is zero.

**Writing.** A double is written with its shortest digits, positionally from 10^-5 up to 10^15, with
at least one digit after the point, otherwise with a power of ten whose sign is always written. -/

namespace ResourceQuery.Json

/-! ## Reading -/

/-- A digit put after a significand, if that still fits. -/
def appendDigit? (n : Nat) (d : Char) : Option Nat :=
  let m := 10 * n + (d.toNat - 48)
  if fitsUInt64 m then some m else none

/-- Digits before the point: the significand, and how many digits did not fit. -/
def takeWhole (n : Nat) : List Char → Nat × Nat
  | [] => (n, 0)
  | d :: ds =>
    match appendDigit? n d with
    | some m => takeWhole m ds
    | none => (n, ds.length + 1)

/-- Digits after the point: the significand, and how many digits did fit. -/
def takeFraction (n : Nat) : List Char → Nat × Nat
  | [] => (n, 0)
  | d :: ds =>
    match appendDigit? n d with
    | some m => let r := takeFraction m ds; (r.1, r.2 + 1)
    | none => (n, 0)

/-- A power of ten rounded to a double. -/
def powerOfTen (k : Nat) : Option Binary64 := Binary64.ofNat (Nat.pow 10 k)

/-- A double times `10 ^ k`, in one step if the power is itself a double. Below that range the number
is first divided by `10 ^ 308`, at most `n` times, after which nothing is left of it. -/
def scale (x : Binary64) (k : Int) : Nat → Option Binary64
  | 0 => some (Binary64.zero x.negative)
  | n + 1 =>
    if x.significand = 0 then some x
    else if 308 < k then none
    else if 0 ≤ k then (powerOfTen k.toNat).bind x.mul
    else if -308 ≤ k then (powerOfTen (-k).toNat).bind x.div
    else ((powerOfTen 308).bind x.div).bind fun y => scale y (k + 308) n

/-- The double `± n * 10 ^ k`. -/
def scaledDouble? (negative : Bool) (n : Nat) (k : Int) : Option Json :=
  ((Binary64.ofNat n).bind fun x => scale x k 3).map fun x =>
    double { x with negative := negative }

/-- A numeral with neither point nor power of ten. -/
def wholeNumber? (negative : Bool) (ds : List Char) : Option Json :=
  let w := takeWhole 0 ds
  if w.2 ≠ 0 then scaledDouble? negative w.1 w.2
  else if !negative then some (int w.1)
  else if w.1 = 0 ∨ !fitsInt64 (-(w.1 : Int)) then scaledDouble? true w.1 0
  else some (int (-(w.1 : Int)))

/-- The power of ten after a mantissa, if there is one, and the rest. -/
def spanPower (cs : List Char) : Option (Option Int × List Char) :=
  match cs with
  | c :: r =>
    if c = 'e' ∨ c = 'E' then
      let s := spanSign r
      let d := spanDigits s.2
      if d.1 = [] then none
      else some (some (if s.1 then -(digitsValue d.1 : Int) else (digitsValue d.1 : Int)), d.2)
    else some (none, cs)
  | [] => some (none, cs)

/-- What follows the sign: the number and the rest. No leading zeros; digits on both sides of a point. -/
def unsignedNumber? (negative : Bool) (cs : List Char) : Option (Json × List Char) :=
  let w := spanDigits cs
  if w.1 = [] ∨ (w.1.head? = some '0' ∧ w.1.length ≠ 1) then none
  else match w.2 with
    | '.' :: r =>
      let f := spanDigits r
      if f.1 = [] then none
      else (spanPower f.2).bind fun (p, rest) =>
        let a := takeWhole 0 w.1
        let b := takeFraction a.1 f.1
        (scaledDouble? negative b.1 ((a.2 : Int) - (b.2 : Int) + p.getD 0)).map (·, rest)
    | r => (spanPower r).bind fun (p, rest) =>
      match p with
      | none => (wholeNumber? negative w.1).map (·, rest)
      | some k =>
        let a := takeWhole 0 w.1
        (scaledDouble? negative a.1 ((a.2 : Int) + k)).map (·, rest)

/-- **The number a text starts with**, and the rest. -/
def number? : List Char → Option (Json × List Char)
  | '-' :: cs => unsignedNumber? true cs
  | cs => unsignedNumber? false cs

/-! ## Writing -/

/-- A natural number in decimal. -/
def natText (n : Nat) : List Char := Nat.toDigits 10 n

/-- A whole number in decimal. -/
def intText (n : Int) : List Char :=
  if n < 0 then '-' :: natText n.natAbs else natText n.natAbs

/-- The least and the greatest power of ten of a leading digit that is written positionally. -/
def positionalRange : Int × Int := (-5, 15)

/-- Digits with the leading one at `10 ^ e`, written positionally. -/
def positional (ds : List Char) (e : Int) : List Char :=
  if e < 0 then ['0', '.'] ++ List.replicate (-e - 1).toNat '0' ++ ds
  else
    let n := e.toNat + 1
    if ds.length ≤ n then ds ++ List.replicate (n - ds.length) '0' ++ ['.', '0']
    else ds.take n ++ '.' :: ds.drop n

/-- Digits with the leading one at `10 ^ e`, written with a power of ten. -/
def scientific (ds : List Char) (e : Int) : List Char :=
  let mantissa := match ds with
    | [] => []
    | [d] => [d]
    | d :: ds => d :: '.' :: ds
  mantissa ++ ['e', if e < 0 then '-' else '+'] ++ natText e.natAbs

/-- **A double as text.** -/
def doubleText (x : Binary64) : List Char :=
  let sign := if x.negative then ['-'] else []
  if x.significand = 0 then sign ++ ['0', '.', '0']
  else
    let s := x.shortest
    let ds := natText s.1
    let e := s.2 + (ds.length : Int) - 1
    sign ++ if positionalRange.1 ≤ e ∧ e ≤ positionalRange.2 then positional ds e else scientific ds e

end ResourceQuery.Json
