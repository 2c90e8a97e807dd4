import ResourceQuery.Number.Binary64

/-! # The fewest digits that read back

The reals that round to a double form an interval around it, whose ends belong to it exactly when the
significand is even. The shortest text of the double is the point of the coarsest decimal grid that
lies in the interval; of two such points the nearer one is taken, and of two equally near ones the
even one. A grid that has a point in the interval has one next to the double itself, so only the two
neighbours of the double on each grid are looked at.

All comparisons are between natural numbers: the double and the ends of its interval are multiples of
a quarter of its unit in the last place. -/

namespace ResourceQuery.Binary64

/-- The value `a * 2 ^ e * 10 ^ k` as a numerator and a denominator. -/
def scaled (a : Nat) (e k : Int) : Nat × Nat :=
  (a * Nat.pow 2 e.toNat * Nat.pow 10 k.toNat, Nat.pow 2 (-e).toNat * Nat.pow 10 (-k).toNat)

/-- The quarters of a unit from the double down to the middle of the gap below it. The gap below a
power of two is half as wide, except among the subnormal numbers. -/
def quartersBelow (x : Binary64) : Nat :=
  if x.significand = leastNormal ∧ minExponent < x.exponent then 1 else 2

/-- Whether the point `d * 10 ^ k` rounds to the absolute value of `x`. -/
def roundsTo (x : Binary64) (d : Nat) (k : Int) : Bool :=
  let v := 4 * x.significand
  let lo := scaled (v - x.quartersBelow) (x.exponent - 2) (-k)
  let hi := scaled (v + 2) (x.exponent - 2) (-k)
  if x.significand % 2 = 0 then lo.1 ≤ d * lo.2 && d * hi.2 ≤ hi.1
  else lo.1 < d * lo.2 && d * hi.2 < hi.1

/-- The point of the grid `10 ^ k` that reads back as `x`: the nearer of its two neighbours, if both do. -/
def gridPoint? (x : Binary64) (k : Int) : Option Nat :=
  let v := scaled x.significand x.exponent (-k)
  let d := v.1 / v.2
  match roundsTo x d k, roundsTo x (d + 1) k with
  | true, true => some (roundDiv v.1 v.2)
  | true, false => some d
  | false, true => some (d + 1)
  | false, false => none

/-- The exponent of the leading decimal digit. -/
def leadingExponent (x : Binary64) : Int :=
  let p := ((x.significand.log2 : Int) + x.exponent) * 30103 / 100000
  let above (j : Int) : Bool := let s := scaled x.significand x.exponent (-j); s.2 ≤ s.1
  if above (p + 1) then p + 1 else if above p then p else p - 1

/-- The first grid that has a point, over `n` more grids, each ten times as fine. -/
def firstGridPoint (x : Binary64) (k : Int) : Nat → Nat × Int
  | 0 => (0, k)
  | n + 1 =>
    match x.gridPoint? k with
    | some d => (d, k)
    | none => x.firstGridPoint (k - 1) n

/-- The number without its trailing zeros, of which at most `n` are looked for. -/
def dropZeros (d : Nat) (k : Int) : Nat → Nat × Int
  | 0 => (d, k)
  | n + 1 => if d % 10 = 0 ∧ d ≠ 0 then dropZeros (d / 10) (k + 1) n else (d, k)

/-- **The shortest decimal** of a double that is not zero: digits and the power of ten of the last one.
Seventeen digits always suffice. -/
def shortest (x : Binary64) : Nat × Int :=
  let p := x.firstGridPoint x.leadingExponent 18
  dropZeros p.1 p.2 18

end ResourceQuery.Binary64
