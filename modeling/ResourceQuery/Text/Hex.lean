/-! # Hexadecimal digits

Read in either case, written in one of them; a capital digit is read back (`hexValue?_upperHexDigit`). -/

namespace ResourceQuery.Text

/-- The value of a hexadecimal digit. -/
def hexValue? (c : Char) : Option Nat :=
  let n := c.toNat
  if 0x30 ≤ n ∧ n ≤ 0x39 then some (n - 0x30)
  else if 0x41 ≤ n ∧ n ≤ 0x46 then some (n - 0x41 + 10)
  else if 0x61 ≤ n ∧ n ≤ 0x66 then some (n - 0x61 + 10)
  else none

/-- The digit of a value below 16, as a small letter from ten on. -/
def lowerHexDigit (n : Nat) : Char := Char.ofNat (if n < 10 then 0x30 + n else 0x61 + (n - 10))

/-- The digit of a value below 16, as a capital letter from ten on. -/
def upperHexDigit (n : Nat) : Char := Char.ofNat (if n < 10 then 0x30 + n else 0x41 + (n - 10))

theorem lt_of_hexValue? {c : Char} {n : Nat} (h : hexValue? c = some n) : c.toNat < 0x80 ∧ n < 16 := by
  simp only [hexValue?] at h
  grind

theorem hexValue?_upperHexDigit {n : Nat} (h : n < 16) : hexValue? (upperHexDigit n) = some n := by
  have hall : ∀ m ∈ List.range 16, hexValue? (upperHexDigit m) = some m := by decide
  exact hall n (List.mem_range.2 h)

end ResourceQuery.Text
