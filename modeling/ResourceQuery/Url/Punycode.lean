import ResourceQuery.Text.Split

/-! # Punycode

How a label of a domain is spelled in ASCII. The ASCII characters of the label come first; after the
last `-` follow numbers in base 36 of variable length, and each number places one more character: it
counts the positions and code points that are passed over since the last one. The digit at which a
number ends depends on a bias, which adapts to the numbers that were read.

Each number is read digit by digit, so that reading is one pass over the digits. -/

namespace ResourceQuery.Url.Punycode

/-- The value of a digit: letters come before numbers, in either case. -/
def digit? (c : Char) : Option Nat :=
  if 'a' ≤ c ∧ c ≤ 'z' then some (c.toNat - 'a'.toNat)
  else if 'A' ≤ c ∧ c ≤ 'Z' then some (c.toNat - 'A'.toNat)
  else if c.isDigit then some (c.toNat - '0'.toNat + 26)
  else none

/-- The threshold of the digit at place `k`: a number ends with the first digit below it. -/
def threshold (k bias : Nat) : Nat := max 1 (min 26 (k - bias))

/-- A step width brought below 456, with 36 for each division. -/
def adaptFrom (k delta : Nat) : Nat :=
  if 455 < delta then adaptFrom (k + 36) (delta / 35) else k + 36 * delta / (delta + 38)
termination_by delta
decreasing_by omega

/-- The bias after a step of `delta`, when `count` characters are placed. -/
def adapt (delta count : Nat) (first : Bool) : Nat :=
  let d := if first then delta / 700 else delta / 2
  adaptFrom 0 (d + d / count)

/-- What is known while the digits are read: the characters placed, the last code point and position,
and of the number that is being read its start, weight and place. -/
structure Progress where
  placed : List Char
  codePoint : Nat := 128
  position : Nat := 0
  bias : Nat := 72
  total : Nat := 0
  weight : Nat := 1
  place : Nat := 36

/-- Whether a number has begun that has not ended. -/
def Progress.isOpen (p : Progress) : Bool := p.place ≠ 36

/-- **The effect of one digit.** It fails on what is no digit, on numbers beyond 32 bits, and on code
points that are no characters. -/
def Progress.read? (p : Progress) (c : Char) : Option Progress := do
  let d ← digit? c
  let total := p.total + d * p.weight
  if 4294967296 ≤ total then none
  let t := threshold p.place p.bias
  if t ≤ d then
    return { p with total, weight := p.weight * (36 - t), place := p.place + 36 }
  let count := p.placed.length + 1
  let n := p.codePoint + total / count
  let i := total % count
  if ¬ n.isValidChar then none
  return { placed := p.placed.take i ++ Char.ofNat n :: p.placed.drop i, codePoint := n
           position := i + 1, total := i + 1
           bias := adapt (total - p.position) count (p.position == 0) }

/-- The ASCII characters of a label and the digits after them. -/
def parts (cs : List Char) : List Char × List Char :=
  match Text.splitOnce '-' cs.reverse with
  | some (digits, c :: basic) => ((c :: basic).reverse, digits.reverse)
  | _ => ([], cs)

/-- **The label that a text spells**, if it spells one. -/
def decode? (cs : List Char) : Option (List Char) := do
  let p ← (parts cs).2.foldlM Progress.read? { placed := (parts cs).1 }
  if p.isOpen then none else return p.placed

end ResourceQuery.Url.Punycode
