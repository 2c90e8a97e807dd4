import Mathlib
import ResourceQuery.Scalar
import ResourceQuery.Proofs.Number.Rounding

/-! # Scalars and the numbers that they say

A scalar is read by the grammar of numerals (`coerce_by_grammar`): what is no numeral stays text, a numeral is
a number unless it is beyond the doubles, and the text of a whole number of 64 bits is that number.

A whole number beyond 64 bits is rounded to a double. Upwards the doubles of 64 bits end below `2 ^ 63`, which
is one itself, so nothing is rounded back into the range. Downwards they end with `-2 ^ 63`, to which the next
`2 ^ 10` whole numbers are rounded; it is then taken for the number that the text says
(`coerce_beyond_int64`). -/

namespace ResourceQuery.Scalar

open Decimal (numeral Whole Says)

theorem fitsInt64_iff {n : ℤ} : fitsInt64 n = true ↔ -2 ^ 63 ≤ n ∧ n < 2 ^ 63 := by
  simp only [fitsInt64, Bool.and_eq_true, decide_eq_true_eq]
  omega

theorem coerce_of_parse? {raw : String} {d : Decimal} (h : Decimal.parse? (Text.trim raw.toList) = some d) :
    coerce raw = (ofDecimal d).getD (.str raw) := by
  have hword : ∀ word ∈ ["null", "true", "false"], raw ≠ word := by
    rintro word hword rfl
    have hnone : Decimal.parse? (Text.trim raw.toList) = none := by
      simp only [List.mem_cons, List.not_mem_nil, or_false] at hword
      rcases hword with rfl | rfl | rfl <;> decide
    simp [hnone] at h
  simp only [List.forall_mem_cons] at hword
  obtain ⟨hnull, htrue, hfalse, -⟩ := hword
  rw [coerce, if_neg hnull, if_neg htrue, if_neg hfalse, number?, h, Option.bind_some]

theorem coerce_whole {raw : String} {n : ℤ} (h : Whole (Text.trim raw.toList) n) (hlower : -2 ^ 63 ≤ n)
    (hupper : n < 2 ^ 63) : coerce raw = .int n := by
  obtain ⟨d, hd, hintegral, -, rfl⟩ := Decimal.parse?_of_whole h
  rw [coerce_of_parse? hd, ofDecimal, if_pos ⟨hintegral, fitsInt64_iff.mpr ⟨hlower, hupper⟩⟩]
  rfl

theorem ofBinary64_eq_int {x : Binary64} {k : ℤ} :
    ofBinary64 x = .int k ↔ x.value = k ∧ -2 ^ 63 ≤ k ∧ k < 2 ^ 63 := by
  rw [← Binary64.toInt?_eq_some, ← fitsInt64_iff]
  unfold ofBinary64
  cases x.toInt? with
  | none => simp
  | some n =>
    simp only [Option.some.injEq]
    constructor
    · intro h
      split at h
      · obtain rfl := Json.int.inj h
        exact ⟨rfl, ‹_›⟩
      · simp at h
    · rintro ⟨rfl, hfits⟩
      rw [if_pos hfits]

theorem ofDecimal_ne_str {d : Decimal} {s : String} : ofDecimal d ≠ some (.str s) := by
  unfold ofDecimal ofBinary64
  split
  · simp
  · rw [ne_eq, Option.map_eq_some_iff]
    rintro ⟨x, -, hx⟩
    split at hx
    · split at hx <;> simp at hx
    · simp at hx

theorem ofDecimal_eq_none_iff {d : Decimal} (h : d.integral = true → d.exponent = 0) :
    ofDecimal d = none ↔ Binary64.overflow ≤ |d.value| := by
  unfold ofDecimal
  split
  · rename_i hfits
    refine iff_of_false (by simp) (not_le.mpr ?_)
    obtain ⟨hlower, hupper⟩ := fitsInt64_iff.mp hfits.2
    have hsmall : |d.toInt| ≤ 2 ^ 63 := abs_le.mpr ⟨hlower, hupper.le⟩
    rw [Decimal.value, h hfits.1, zpow_zero, mul_one, ← Int.cast_abs]
    calc ((|d.toInt| : ℤ) : ℚ) ≤ 2 ^ (63 : ℤ) := by exact_mod_cast hsmall
      _ ≤ 2 ^ (1023 : ℤ) := zpow_le_zpow_right₀ one_le_two (by decide)
      _ < Binary64.overflow := Binary64.lt_overflow
  · rw [Option.map_eq_none_iff, Decimal.toBinary64?_eq_none_iff]

theorem coerce_eq_str_iff {raw : String} {v : ℚ} (h : Says (Text.trim raw.toList) v) :
    coerce raw = .str raw ↔ Binary64.overflow ≤ |v| := by
  obtain ⟨d, hd, rfl, hexponent⟩ := Decimal.exists_parse?_of_says h
  rw [coerce_of_parse? hd, ← ofDecimal_eq_none_iff hexponent]
  cases hnumber : ofDecimal d with
  | none => simp
  | some j =>
    refine iff_of_false (fun hj => ?_) (by simp)
    obtain rfl : j = .str raw := hj
    exact ofDecimal_ne_str hnumber

/-- A whole number that does not fit is rounded to a double of the same sign. -/
theorem coerce_eq_int_iff {raw : String} {n : ℤ} (h : Whole (Text.trim raw.toList) n)
    (hbeyond : n < -2 ^ 63 ∨ 2 ^ 63 ≤ n) (k : ℤ) :
    coerce raw = .int k ↔
      ∃ x, Binary64.ofRatio (decide (n < 0)) n.natAbs 1 = some x ∧ ofBinary64 x = .int k := by
  obtain ⟨d, hd, -, hexponent, rfl⟩ := Decimal.parse?_of_whole h
  have hfits : ¬(d.integral = true ∧ fitsInt64 d.toInt = true) := by
    rw [fitsInt64_iff]
    omega
  have habs : d.toInt.natAbs = d.significand := by
    unfold Decimal.toInt
    split <;> simp
  have hnegative : decide (d.toInt < 0) = d.negative := by
    unfold Decimal.toInt at hbeyond ⊢
    cases d.negative with
    | false => exact decide_eq_false (by simp)
    | true => exact decide_eq_true (by simp only [if_true] at hbeyond ⊢; omega)
  rw [coerce_of_parse? hd, ofDecimal, if_neg hfits, habs, hnegative,
    Decimal.toBinary64?_of_exponent_eq_zero hexponent (by omega)]
  cases Binary64.ofRatio d.negative d.significand 1 with
  | none => simp
  | some x => simp

theorem isBlank_of_isDigit {c : Char} (h : c.isDigit = true) : Text.isBlank c = false := by
  have hrange : 48 ≤ c.toNat ∧ c.toNat ≤ 57 := by
    simpa [Char.isDigit, UInt32.le_iff_toNat_le] using h
  simp [Text.isBlank]
  omega

theorem trim_of_whole {cs : List Char} {n : ℤ} (h : Whole cs n) : Text.trim cs = cs := by
  obtain ⟨s, hs, ds, hds, rfl, -⟩ := h
  refine Text.trim_of_forall_not fun c hc => ?_
  rcases List.mem_append.mp hc with hc | hc
  · rcases Decimal.mem_sign.mp hs with rfl | rfl | rfl
    · simp at hc
    · obtain rfl := List.mem_singleton.mp hc
      decide
    · obtain rfl := List.mem_singleton.mp hc
      decide
  · exact isBlank_of_isDigit ((Decimal.mem_digits.mp hds).2 c hc)

/-- **Scalars are read by the grammar of numerals.** A text that is no word and, blanks around it ignored, no
numeral stays as it is, with its blanks; a numeral says a number, and is one unless it is beyond the doubles.
The text of a whole number, with any sign and leading zeros, is that number if it has 64 bits; so is the
decimal text of each such number. -/
theorem coerce_by_grammar :
    (∀ raw : String, raw ≠ "null" → raw ≠ "true" → raw ≠ "false" →
      Text.trim raw.toList ∉ numeral → coerce raw = .str raw) ∧
    (∀ raw : String, Text.trim raw.toList ∈ numeral → ∃ v, Says (Text.trim raw.toList) v) ∧
    (∀ (raw : String) (v : ℚ), Says (Text.trim raw.toList) v →
      (coerce raw = .str raw ↔ Binary64.overflow ≤ |v|)) ∧
    (∀ (raw : String) (n : ℤ), Whole (Text.trim raw.toList) n → -2 ^ 63 ≤ n → n < 2 ^ 63 →
      coerce raw = .int n) ∧
    ∀ n : ℤ, -2 ^ 63 ≤ n → n < 2 ^ 63 → coerce (toString n) = .int n := by
  refine ⟨fun raw hnull htrue hfalse hnot => ?_, fun raw h => Decimal.mem_numeral.mp h,
    fun raw v => coerce_eq_str_iff, fun raw n => coerce_whole, fun n hlower hupper => ?_⟩
  · have hnone : Decimal.parse? (Text.trim raw.toList) = none := by
      rwa [← Option.not_isSome_iff_eq_none, Decimal.isSome_parse?]
    exact coerce_eq_str hnull htrue hfalse hnone
  · have hwhole := Decimal.whole_toString n
    exact coerce_whole (by rwa [trim_of_whole hwhole]) hlower hupper

/-- Blanks and leading zeros, two points, a value beyond the doubles, and the least number of 64 bits. -/
theorem coerce_by_grammar_marks :
    (Text.trim " 1.2.3".toList ∉ numeral ∧ coerce " 1.2.3" = .str " 1.2.3") ∧
    (Says (Text.trim "1e400".toList) (10 ^ 400) ∧
      (coerce "1e400" = .str "1e400" ↔ Binary64.overflow ≤ |10 ^ 400|)) ∧
    (Whole (Text.trim " -007 ".toList) (-7) ∧ coerce " -007 " = .int (-7)) ∧
    coerce (toString (-2 ^ 63 : ℤ)) = .int (-2 ^ 63) := by
  have hnot : Text.trim " 1.2.3".toList ∉ numeral := by decide
  have hpower : Decimal.Exponent ['e', '4', '0', '0'] 400 :=
    .inr ⟨'e', _, .inl rfl, ⟨[], Decimal.mem_sign.mpr (by simp), ['4', '0', '0'],
      Decimal.mem_digits.mpr (by simp), rfl, rfl⟩, rfl⟩
  have hpowers : Says (Text.trim "1e400".toList) (10 ^ 400) :=
    ⟨[], Decimal.mem_sign.mpr (by simp), ['1'], [], [], _, _, Decimal.mem_digits.mpr (by simp),
      .inr ⟨rfl, rfl⟩, hpower, rfl, by simp [Decimal.signed]; rfl⟩
  have hwhole : Whole (Text.trim " -007 ".toList) (-7) :=
    ⟨['-'], Decimal.mem_sign.mpr (by simp), ['0', '0', '7'], Decimal.mem_digits.mpr (by simp), rfl, rfl⟩
  exact ⟨⟨hnot, coerce_by_grammar.1 " 1.2.3" (by decide) (by decide) (by decide) hnot⟩,
    ⟨hpowers, coerce_by_grammar.2.2.1 "1e400" _ hpowers⟩,
    ⟨hwhole, coerce_by_grammar.2.2.2.1 " -007 " (-7) hwhole (by decide) (by decide)⟩,
    coerce_by_grammar.2.2.2.2 (-2 ^ 63) (by decide) (by decide)⟩

/-! ## Beyond 64 bits -/

theorem ofBinary64_beyond {n : ℤ} {x : Binary64} (hbeyond : n < -2 ^ 63 ∨ 2 ^ 63 ≤ n)
    (hx : Binary64.ofRatio (decide (n < 0)) n.natAbs 1 = some x) (k : ℤ) :
    ofBinary64 x = .int k ↔ k = -2 ^ 63 ∧ -2 ^ 63 - 2 ^ 10 ≤ n ∧ n < -2 ^ 63 := by
  have hgreat : (2 : ℚ) ^ (63 : ℤ) ≤ (n.natAbs : ℚ) / (1 : ℕ) := by
    rw [Nat.cast_one, div_one]
    have : 2 ^ 63 ≤ n.natAbs := by omega
    exact_mod_cast this
  have hnear : (n.natAbs : ℚ) / (1 : ℕ) ≤ 2 ^ (63 : ℤ) + 2 ^ (63 - 53 : ℤ) ↔ n.natAbs ≤ 2 ^ 63 + 2 ^ 10 := by
    rw [Nat.cast_one, div_one, ← Nat.cast_le (α := ℚ)]
    norm_num
  obtain ⟨hsign, -⟩ := Binary64.ofRatio_eq_some (by omega) hx
  obtain ⟨hle, hpower⟩ := Binary64.magnitude_of_two_zpow_le Nat.one_pos hx (by decide) hgreat
  rw [show (2 : ℚ) ^ (63 : ℤ) = 2 ^ 63 by norm_num] at hle hpower hnear
  rw [hnear] at hpower
  rw [ofBinary64_eq_int, Binary64.value, hsign]
  by_cases hn : n < 0
  · rw [if_pos (decide_eq_true hn)]
    constructor
    · rintro ⟨hk, hlower, -⟩
      have hlower' : (-2 ^ 63 : ℚ) ≤ k := by exact_mod_cast hlower
      have hmagnitude : x.magnitude = 2 ^ 63 := le_antisymm (by linarith) hle
      have hn' := hpower.mp hmagnitude
      rw [hmagnitude] at hk
      have hk' : k = -2 ^ 63 := by exact_mod_cast hk.symm
      exact ⟨hk', by omega, by omega⟩
    · rintro ⟨rfl, hlower, -⟩
      rw [hpower.mpr (by omega)]
      norm_num
  · rw [if_neg (by simpa using hn)]
    refine iff_of_false ?_ (by omega)
    rintro ⟨hk, -, hupper⟩
    have hupper' : (k : ℚ) < 2 ^ 63 := by exact_mod_cast hupper
    linarith

/-- **Which whole numbers beyond 64 bits become others.** The text of such a number is a whole number of 64
bits exactly if it is one of the `2 ^ 10` numbers next below `-2 ^ 63`, and then it is `-2 ^ 63`. -/
theorem coerce_beyond_int64 (raw : String) (n : ℤ) (h : Whole (Text.trim raw.toList) n)
    (hbeyond : n < -2 ^ 63 ∨ 2 ^ 63 ≤ n) (k : ℤ) :
    coerce raw = .int k ↔ k = -2 ^ 63 ∧ -2 ^ 63 - 2 ^ 10 ≤ n ∧ n < -2 ^ 63 := by
  rw [coerce_eq_int_iff h hbeyond]
  constructor
  · rintro ⟨x, hx, hk⟩
    exact (ofBinary64_beyond hbeyond hx k).mp hk
  · intro hk
    have hsome : Binary64.ofRatio (decide (n < 0)) n.natAbs 1 ≠ none := by
      rw [ne_eq, Binary64.ofRatio_eq_none_iff _ Nat.one_pos, not_le, Nat.cast_one, div_one]
      have hsmall : n.natAbs ≤ 2 ^ 64 := by omega
      calc (n.natAbs : ℚ) ≤ 2 ^ (64 : ℤ) := by exact_mod_cast hsmall
        _ ≤ 2 ^ (1023 : ℤ) := zpow_le_zpow_right₀ one_le_two (by decide)
        _ < Binary64.overflow := Binary64.lt_overflow
    obtain ⟨x, hx⟩ := Option.ne_none_iff_exists'.mp hsome
    exact ⟨x, hx, (ofBinary64_beyond hbeyond hx k).mpr hk⟩

/-- The last number that is rounded up to `-2 ^ 63`, a tie. -/
theorem coerce_beyond_int64_tie :
    Whole (Text.trim "-9223372036854776832".toList) (-9223372036854776832) ∧
      coerce "-9223372036854776832" = .int (-2 ^ 63) := by
  have h : Whole (Text.trim "-9223372036854776832".toList) (-9223372036854776832) :=
    ⟨['-'], Decimal.mem_sign.mpr (by simp), "9223372036854776832".toList,
      Decimal.mem_digits.mpr (by simp), rfl, by decide⟩
  exact ⟨h, (coerce_beyond_int64 _ _ h (by decide) _).mpr (by decide)⟩

/-- **A whole number becomes another one**: the greatest below 64 bits. -/
theorem exists_whole_changed :
    Whole (Text.trim "-9223372036854775809".toList) (-9223372036854775809) ∧
      ¬-2 ^ 63 ≤ (-9223372036854775809 : ℤ) ∧
      coerce "-9223372036854775809" = .int (-9223372036854775808) := by
  refine ⟨⟨['-'], Decimal.mem_sign.mpr (by simp), "9223372036854775809".toList,
      Decimal.mem_digits.mpr (by simp), rfl, by decide⟩, by decide, ?_⟩
  rfl

end ResourceQuery.Scalar
