/-! # Finite binary64 numbers

A finite double is a sign, a significand below 2^53 and a power of two. All arithmetic on it is done on
natural numbers: a positive rational `num / den` is rounded once, to the nearest double, a tie going
to the even significand, and a value at or above the middle between the largest double and 2^1024 is
out of range.

* `roundRatio`: the rounding, as a significand and a power of two.
* `ofRatio`, `ofNat`, `mul`, `div`: the operations that the readers of numbers need, each rounded once.
* `toInt?`: the whole number that a double is, if it is one. -/

namespace ResourceQuery

/-- **A finite double.** Its value is `± significand * 2 ^ exponent`. -/
structure Binary64 where
  negative : Bool
  significand : Nat
  exponent : Int
deriving DecidableEq, Repr

namespace Binary64

/-- The least exponent, that of the subnormal numbers. -/
def minExponent : Int := -1074

/-- The greatest exponent. -/
def maxExponent : Int := 971

/-- What significands are below: `2 ^ 53`. -/
def significandBound : Nat := 9007199254740992

/-- The least significand above the subnormal numbers: `2 ^ 52`. -/
def leastNormal : Nat := 4503599627370496

/-- Zero, with a sign. -/
def zero (negative : Bool) : Binary64 := ⟨negative, 0, minExponent⟩

/-- The quotient of `num / den` and `2 ^ q`, as a numerator and a denominator. -/
def scaleRatio (num den : Nat) (q : Int) : Nat × Nat :=
  if 0 ≤ q then (num, den * Nat.pow 2 q.toNat) else (num * Nat.pow 2 (-q).toNat, den)

/-- The natural number nearest to `num / den`; a half goes to the even neighbour. -/
def roundDiv (num den : Nat) : Nat :=
  let q := num / den
  let r := num % den
  if 2 * r < den then q
  else if den < 2 * r then q + 1
  else if q % 2 = 0 then q else q + 1

/-- The exponent at which the quotient `num / den` has 53 binary digits, or the least exponent. -/
def ratioExponent (num den : Nat) : Int :=
  let q := (num.log2 : Int) - (den.log2 : Int) - 53
  let s := scaleRatio num den q
  max minExponent (if s.1 < s.2 * significandBound then q else q + 1)

/-- A ratio rounded to 53 binary digits, or to a multiple of the least double. -/
def roundRatio (num den : Nat) : Nat × Int :=
  let q := ratioExponent num den
  let s := scaleRatio num den q
  let m := roundDiv s.1 s.2
  if m = significandBound then (leastNormal, q + 1) else (m, q)

/-- **The double nearest to `± num / den`**, unless that is out of range. -/
def ofRatio (negative : Bool) (num den : Nat) : Option Binary64 :=
  if num = 0 then some (zero negative)
  else
    let r := roundRatio num den
    if r.2 ≤ maxExponent then some ⟨negative, r.1, r.2⟩ else none

/-- The double nearest to a natural number, unless that is out of range. -/
def ofNat (n : Nat) : Option Binary64 := ofRatio false n 1

/-- The absolute value as a numerator and a denominator. -/
def ratio (x : Binary64) : Nat × Nat :=
  if 0 ≤ x.exponent then (x.significand * Nat.pow 2 x.exponent.toNat, 1)
  else (x.significand, Nat.pow 2 (-x.exponent).toNat)

/-- The product, rounded once. -/
def mul (x y : Binary64) : Option Binary64 :=
  ofRatio (x.negative != y.negative) (x.ratio.1 * y.ratio.1) (x.ratio.2 * y.ratio.2)

/-- The quotient, rounded once; `y` is not zero. -/
def div (x y : Binary64) : Option Binary64 :=
  ofRatio (x.negative != y.negative) (x.ratio.1 * y.ratio.2) (x.ratio.2 * y.ratio.1)

/-- The number with the other sign. -/
def neg (x : Binary64) : Binary64 := { x with negative := !x.negative }

/-- The whole number that `x` is. -/
def toInt? (x : Binary64) : Option Int :=
  let r := x.ratio
  if r.1 % r.2 = 0 then
    some (if x.negative then -((r.1 / r.2 : Nat) : Int) else ((r.1 / r.2 : Nat) : Int))
  else none

/-! ## Rounding a quotient -/

theorem roundDiv_of_dvd {num den : Nat} (hd : 0 < den) (h : num % den = 0) :
    roundDiv num den = num / den := by
  simp [roundDiv, h, hd]

theorem le_roundDiv {num den k : Nat} (hd : 0 < den) (h : k * den ≤ num) :
    k ≤ roundDiv num den := by
  have hq : k ≤ num / den := (Nat.le_div_iff_mul_le hd).2 h
  unfold roundDiv
  dsimp only
  split
  · exact hq
  · split
    · omega
    · split <;> omega

theorem roundDiv_le {num den k : Nat} (hd : 0 < den) (h : num ≤ k * den) :
    roundDiv num den ≤ k := by
  have hm := Nat.div_add_mod num den
  have hlt := Nat.mod_lt num hd
  by_cases hk : num / den = k
  · have hr : num % den = 0 := by
      rw [hk, Nat.mul_comm] at hm
      omega
    exact Nat.le_of_eq ((roundDiv_of_dvd hd hr).trans hk)
  · have hq : num / den ≤ k := Nat.div_le_of_le_mul (by rwa [Nat.mul_comm] at h)
    unfold roundDiv
    dsimp only
    split
    · exact hq
    · split
      · omega
      · split <;> omega

end Binary64

end ResourceQuery
