import Mathlib
import ResourceQuery.Proofs.Number.Numerals

/-! # Rounding to a double

A quotient of natural numbers is rounded once, to the nearest double, a tie going to the even significand.
Everything is read off two facts about the rational number `num / den`: at the exponent that is chosen it lies
below `2 ^ 53` units and, above the subnormal numbers, not below `2 ^ 52` (`ratio_lt`, `le_ratio`); and the
number of units is rounded to the nearest one (`roundDiv_le_iff`, which is all there is to say about it).

* `ofRatio_eq_none_iff`: out of range is what lies half a unit or more above the greatest double.
* `magnitude_of_two_zpow_le`: what is at least a power of two stays so, and becomes that power up to half a
  unit above it.
* `toInt?_eq_some`: the whole number that a double is.
* `Decimal.toBinary64?_eq_none_iff`: the numerals beyond the doubles. -/

namespace ResourceQuery

namespace Binary64

/-- The absolute value of a double. -/
def magnitude (x : Binary64) : ℚ := x.significand * 2 ^ x.exponent

/-- **The value of a double.** -/
def value (x : Binary64) : ℚ := if x.negative then -x.magnitude else x.magnitude

/-- **The values that are out of range** start here: half a unit above the greatest double. -/
def overflow : ℚ := 2 ^ 1024 - 2 ^ 970

theorem magnitude_mk (negative : Bool) (m : ℕ) (e : ℤ) : magnitude ⟨negative, m, e⟩ = m * 2 ^ e := rfl

/-! ## The nearest unit -/

/-- **A quotient is rounded to the nearest whole number**, a half to the even one. -/
theorem roundDiv_le_iff {num den k : ℕ} (hd : 0 < den) : roundDiv num den ≤ k ↔
    2 * num < (2 * k + 1) * den ∨ 2 * num = (2 * k + 1) * den ∧ k % 2 = 0 := by
  have hnum := Nat.div_add_mod num den
  have hr := Nat.mod_lt num hd
  rcases lt_trichotomy (num / den) k with hk | hk | hk
  · -- far enough below
    have hle : den * (num / den) + den ≤ den * k := by
      rw [← Nat.mul_succ]
      exact Nat.mul_le_mul_left den hk
    have hround : roundDiv num den ≤ k := roundDiv_le hd (by rw [Nat.mul_comm k]; omega)
    exact iff_of_true hround (.inl (by rw [Nat.add_mul, Nat.mul_assoc, Nat.mul_comm k]; omega))
  · subst hk
    have htwice : (2 * (num / den) + 1) * den = 2 * (den * (num / den)) + den := by ring
    rw [htwice]
    unfold roundDiv
    dsimp only
    split_ifs <;> omega
  · have hle : den * k + den ≤ den * (num / den) := by
      rw [← Nat.mul_succ]
      exact Nat.mul_le_mul_left den hk
    have hround : k + 1 ≤ roundDiv num den :=
      le_roundDiv hd (by rw [Nat.add_mul, Nat.mul_comm k]; omega)
    refine iff_of_false (by omega) ?_
    have htwice : (2 * k + 1) * den = 2 * (den * k) + den := by ring
    omega

theorem roundDiv_le_iff_ratio {num den k : ℕ} (hd : 0 < den) : roundDiv num den ≤ k ↔
    (num : ℚ) / den < k + 1 / 2 ∨ (num : ℚ) / den = k + 1 / 2 ∧ k % 2 = 0 := by
  have hd' : (0 : ℚ) < den := by exact_mod_cast hd
  have hlt : (num : ℚ) / den < k + 1 / 2 ↔ 2 * num < (2 * k + 1) * den := by
    rw [div_lt_iff₀ hd', ← Nat.cast_lt (α := ℚ)]
    push_cast
    constructor <;> intro h <;> linarith
  have heq : (num : ℚ) / den = k + 1 / 2 ↔ 2 * num = (2 * k + 1) * den := by
    rw [div_eq_iff hd'.ne', ← Nat.cast_inj (R := ℚ)]
    push_cast
    constructor <;> intro h <;> linarith
  rw [roundDiv_le_iff hd, hlt, heq]

theorem le_roundDiv_ratio {num den k : ℕ} (hd : 0 < den) (h : (k : ℚ) ≤ num / den) :
    k ≤ roundDiv num den := by
  refine le_roundDiv hd ?_
  rw [le_div_iff₀ (by exact_mod_cast hd)] at h
  exact_mod_cast h

/-! ## The unit that is chosen -/

theorem scaleRatio_pos {num den : ℕ} (hd : 0 < den) (q : ℤ) : 0 < (scaleRatio num den q).2 := by
  unfold scaleRatio
  split
  · exact Nat.mul_pos hd (Nat.pow_pos (by decide))
  · exact hd

/-- Scaled by `2 ^ q`, a quotient is counted in units of `2 ^ q`. -/
theorem scaleRatio_ratio (num den : ℕ) (q : ℤ) :
    ((scaleRatio num den q).1 : ℚ) / (scaleRatio num den q).2 = num / den / 2 ^ q := by
  unfold scaleRatio
  split
  · rename_i hq
    obtain ⟨n, rfl⟩ := Int.eq_ofNat_of_zero_le hq
    simp [div_div]
  · rename_i hq
    obtain ⟨n, hn⟩ := Int.eq_ofNat_of_zero_le (show 0 ≤ -q by omega)
    obtain rfl : q = -(n : ℤ) := by omega
    simp [div_eq_mul_inv, mul_right_comm]

variable {num den : ℕ}

theorem two_zpow_log2_le (hn : 0 < num) : (2 : ℚ) ^ (num.log2 : ℤ) ≤ num := by
  rw [zpow_natCast]
  exact_mod_cast Nat.log2_self_le hn.ne'

theorem lt_two_zpow_log2 (num : ℕ) : (num : ℚ) < 2 ^ ((num.log2 : ℤ) + 1) := by
  rw [show (num.log2 : ℤ) + 1 = ((num.log2 + 1 : ℕ) : ℤ) by push_cast; rfl, zpow_natCast]
  exact_mod_cast Nat.lt_log2_self

/-- Without the bound from below, the unit of which a quotient has from `2 ^ 52` to `2 ^ 53`. -/
theorem exists_unit (hn : 0 < num) (hd : 0 < den) : ∃ q : ℤ, ratioExponent num den = max minExponent q ∧
    2 ^ (q + 52) ≤ (num : ℚ) / den ∧ (num : ℚ) / den < 2 ^ (q + 53) := by
  have hd' : (0 : ℚ) < den := by exact_mod_cast hd
  set q : ℤ := (num.log2 : ℤ) - (den.log2 : ℤ) - 53 with hq
  have hlower : (2 : ℚ) ^ (q + 52) ≤ num / den := by
    rw [le_div_iff₀ hd']
    calc (2 : ℚ) ^ (q + 52) * den ≤ 2 ^ (q + 52) * 2 ^ ((den.log2 : ℤ) + 1) := by
          gcongr
          exact (lt_two_zpow_log2 den).le
      _ = 2 ^ (num.log2 : ℤ) := by
          rw [← zpow_add₀ two_ne_zero]
          congr 1
          omega
      _ ≤ num := two_zpow_log2_le hn
  have hupper : (num : ℚ) / den < 2 ^ (q + 54) := by
    rw [div_lt_iff₀ hd']
    calc (num : ℚ) < 2 ^ ((num.log2 : ℤ) + 1) := lt_two_zpow_log2 num
      _ = 2 ^ (q + 54) * 2 ^ (den.log2 : ℤ) := by
          rw [← zpow_add₀ two_ne_zero]
          congr 1
          omega
      _ ≤ 2 ^ (q + 54) * den := by
          gcongr
          exact two_zpow_log2_le hd
  have htest : (scaleRatio num den q).1 < (scaleRatio num den q).2 * significandBound ↔
      (num : ℚ) / den < 2 ^ (q + 53) := by
    have hs : (0 : ℚ) < (scaleRatio num den q).2 := by exact_mod_cast scaleRatio_pos hd q
    rw [← Nat.cast_lt (α := ℚ), Nat.cast_mul, mul_comm, ← div_lt_iff₀ hs, scaleRatio_ratio,
      div_lt_iff₀ (by positivity), zpow_add₀ two_ne_zero, mul_comm]
    norm_num [significandBound]
  unfold ratioExponent
  dsimp only
  split
  · rename_i h
    exact ⟨q, rfl, hlower, htest.mp h⟩
  · rename_i h
    have hle := not_lt.mp (mt htest.mpr h)
    exact ⟨q + 1, rfl, by rwa [add_assoc], by rwa [add_assoc]⟩

theorem ratio_lt (hn : 0 < num) (hd : 0 < den) : (num : ℚ) / den < 2 ^ (ratioExponent num den + 53) := by
  obtain ⟨q, hq, -, hupper⟩ := exists_unit hn hd
  refine hupper.trans_le (zpow_le_zpow_right₀ one_le_two ?_)
  rw [hq]
  omega

/-- Above the subnormal numbers it has at least `2 ^ 52`. -/
theorem le_ratio (hn : 0 < num) (hd : 0 < den) (h : minExponent < ratioExponent num den) :
    2 ^ (ratioExponent num den + 52) ≤ (num : ℚ) / den := by
  obtain ⟨q, hq, hlower, -⟩ := exists_unit hn hd
  rwa [show ratioExponent num den = q by omega]

/-- The number of units, rounded. -/
def units (num den : ℕ) : ℕ :=
  let s := scaleRatio num den (ratioExponent num den)
  roundDiv s.1 s.2

theorem two_zpow_add_52 (q : ℤ) : (2 : ℚ) ^ (q + 52) = (2 ^ 52 : ℕ) * 2 ^ q := by
  rw [zpow_add₀ two_ne_zero, mul_comm]
  norm_num

theorem units_le_iff {k : ℕ} (hd : 0 < den) : units num den ≤ k ↔
    (num : ℚ) / den < (k + 1 / 2) * 2 ^ ratioExponent num den ∨
      (num : ℚ) / den = (k + 1 / 2) * 2 ^ ratioExponent num den ∧ k % 2 = 0 := by
  rw [units, roundDiv_le_iff_ratio (scaleRatio_pos hd _), scaleRatio_ratio, div_lt_iff₀ (by positivity),
    div_eq_iff (by positivity)]

theorem le_units {k : ℕ} (hd : 0 < den) (h : (k : ℚ) * 2 ^ ratioExponent num den ≤ num / den) :
    k ≤ units num den := by
  refine le_roundDiv_ratio (scaleRatio_pos hd _) ?_
  rwa [scaleRatio_ratio, le_div_iff₀ (by positivity)]

theorem roundRatio_eq (num den : ℕ) : roundRatio num den =
    if units num den = significandBound then (leastNormal, ratioExponent num den + 1)
    else (units num den, ratioExponent num den) := rfl

/-- A carry into the next exponent does not change the value. -/
theorem roundRatio_magnitude (num den : ℕ) :
    ((roundRatio num den).1 : ℚ) * 2 ^ (roundRatio num den).2 =
      units num den * 2 ^ ratioExponent num den := by
  rw [roundRatio_eq]
  split
  · rename_i h
    rw [h, zpow_add₀ two_ne_zero]
    norm_num [leastNormal, significandBound]
    ring
  · rfl

/-! ## Out of range -/

theorem overflow_eq : overflow = ((2 ^ 53 - 1 : ℕ) + 1 / 2) * 2 ^ maxExponent := by
  rw [overflow, maxExponent, show (1024 : ℕ) = 54 + 970 by rfl, pow_add,
    show (2 : ℚ) ^ (971 : ℤ) = 2 ^ 970 * 2 by rw [show (971 : ℤ) = (970 + 1 : ℕ) by rfl, zpow_natCast, pow_succ]]
  generalize (2 : ℚ) ^ 970 = a
  norm_num
  ring

theorem overflow_lt : overflow < 2 ^ (1024 : ℤ) := by
  rw [overflow, show (1024 : ℤ) = (1024 : ℕ) by rfl, zpow_natCast]
  exact sub_lt_self _ (by positivity)

theorem overflow_le_ten_zpow : overflow ≤ 10 ^ (400 : ℤ) := by
  calc overflow ≤ 2 ^ (1024 : ℤ) := overflow_lt.le
    _ ≤ 2 ^ (3 * 400 : ℤ) := zpow_le_zpow_right₀ one_le_two (by decide)
    _ = (2 ^ (3 : ℤ)) ^ (400 : ℤ) := zpow_mul 2 3 400
    _ ≤ 10 ^ (400 : ℤ) := zpow_le_zpow_left₀ (by decide) (by norm_num) (by norm_num)

theorem lt_overflow : 2 ^ (1023 : ℤ) < overflow := by
  rw [overflow, show (1023 : ℤ) = (53 + 970 : ℕ) by rfl, zpow_natCast, show (1024 : ℕ) = 54 + 970 by rfl,
    pow_add, pow_add]
  have h : (0 : ℚ) < 2 ^ 970 := by positivity
  generalize (2 : ℚ) ^ 970 = a at h ⊢
  norm_num
  linarith

theorem units_le (hn : 0 < num) (hd : 0 < den) : units num den ≤ significandBound := by
  refine (units_le_iff hd).mpr (.inl ((ratio_lt hn hd).trans ?_))
  rw [zpow_add₀ two_ne_zero, mul_comm]
  gcongr
  norm_num [significandBound]

theorem lt_roundRatio_iff (hn : 0 < num) (hd : 0 < den) :
    maxExponent < (roundRatio num den).2 ↔ overflow ≤ (num : ℚ) / den := by
  rw [roundRatio_eq]
  rcases lt_trichotomy (ratioExponent num den) maxExponent with hq | hq | hq
  · refine iff_of_false ?_ (not_le.mpr ?_)
    · split <;> simp only <;> omega
    · calc (num : ℚ) / den < 2 ^ (ratioExponent num den + 53) := ratio_lt hn hd
        _ ≤ 2 ^ (1023 : ℤ) := zpow_le_zpow_right₀ one_le_two (by rw [maxExponent] at hq; omega)
        _ < overflow := lt_overflow
  · -- only the carry leads out of range
    have hcarry : units num den = significandBound ↔ ¬units num den ≤ 2 ^ 53 - 1 := by
      have := units_le hn hd
      rw [significandBound] at *
      omega
    have hodd : (2 ^ 53 - 1) % 2 ≠ 0 := by decide
    rw [units_le_iff hd, hq, ← overflow_eq, or_iff_left fun h => hodd h.2, not_lt] at hcarry
    rw [hq, ← hcarry]
    split <;> rename_i h <;> simp [h]
  · have hbelow : overflow ≤ (num : ℚ) / den := by
      calc overflow ≤ 2 ^ (1024 : ℤ) := overflow_lt.le
        _ ≤ 2 ^ (ratioExponent num den + 52) :=
          zpow_le_zpow_right₀ one_le_two (by rw [maxExponent] at hq; omega)
        _ ≤ num / den := le_ratio hn hd (hq.trans' (by decide))
    refine iff_of_true ?_ hbelow
    split <;> simp only <;> omega

/-- **Out of range** is what lies half a unit or more above the greatest double. -/
theorem ofRatio_eq_none_iff (negative : Bool) (hd : 0 < den) :
    ofRatio negative num den = none ↔ overflow ≤ (num : ℚ) / den := by
  unfold ofRatio
  split
  · rename_i h
    have hpos : 0 < overflow := lt_overflow.trans' (by positivity)
    simp [h, hpos]
  · rename_i h
    rw [← lt_roundRatio_iff (Nat.pos_of_ne_zero h) hd]
    dsimp only
    split <;> rename_i hle <;> simpa using hle

/-! ## What is at least a power of two -/

theorem ofRatio_eq_some {negative : Bool} {x : Binary64} (hn : 0 < num)
    (h : ofRatio negative num den = some x) :
    x.negative = negative ∧ x.magnitude = units num den * 2 ^ ratioExponent num den := by
  rw [ofRatio, if_neg hn.ne'] at h
  obtain ⟨-, hx⟩ := Option.ite_none_right_eq_some.mp h
  rw [← roundRatio_magnitude, ← Option.some.inj hx]
  exact ⟨rfl, magnitude_mk _ _ _⟩

/-- **What is at least a power of two** stays so, and becomes that power up to half a unit above it, where
the unit is that of the doubles from this power on. -/
theorem magnitude_of_two_zpow_le {negative : Bool} {x : Binary64} (hd : 0 < den)
    (h : ofRatio negative num den = some x) {j : ℤ} (hj : minExponent + 52 ≤ j)
    (hle : (2 : ℚ) ^ j ≤ num / den) :
    2 ^ j ≤ x.magnitude ∧ (x.magnitude = 2 ^ j ↔ (num : ℚ) / den ≤ 2 ^ j + 2 ^ (j - 53)) := by
  have hn : 0 < num := by
    have hpos : (0 : ℚ) < num / den := hle.trans_lt' (by positivity)
    by_contra hzero
    simp [Nat.eq_zero_of_not_pos hzero] at hpos
  obtain ⟨-, hx⟩ := ofRatio_eq_some hn h
  have hq : j - 52 ≤ ratioExponent num den := by
    have hlt := (zpow_lt_zpow_iff_right₀ one_lt_two).mp (hle.trans_lt (ratio_lt hn hd))
    omega
  obtain ⟨i, rfl⟩ : ∃ i, j = i + 52 := ⟨j - 52, by ring⟩
  have hhalf : (2 : ℚ) ^ (i + 52 - 53) = 1 / 2 * 2 ^ i := by
    rw [show i + 52 - 53 = -1 + i by ring, zpow_add₀ two_ne_zero]
    norm_num
  have hunit : (0 : ℚ) < 2 ^ i := by positivity
  rw [add_sub_cancel_right] at hq
  rw [two_zpow_add_52] at hle ⊢
  rw [hx, hhalf, ← add_mul]
  rcases hq.eq_or_lt with hq | hq
  · -- in the unit of the power itself, which has an even number of them
    have hlower : 2 ^ 52 ≤ units num den := le_units hd (by rwa [← hq])
    have hupper : units num den ≤ 2 ^ 52 ↔ (num : ℚ) / den ≤ ((2 ^ 52 : ℕ) + 1 / 2) * 2 ^ i := by
      rw [units_le_iff hd, ← hq, le_iff_lt_or_eq]
      simp
    rw [← hupper, ← hq]
    refine ⟨by gcongr, ?_⟩
    rw [mul_left_inj' hunit.ne', Nat.cast_inj]
    omega
  · -- in a wider one, where everything is at least twice the power
    have hbelow := le_ratio hn hd (by omega)
    rw [two_zpow_add_52] at hbelow
    have hwider : 2 * 2 ^ i ≤ (2 : ℚ) ^ ratioExponent num den := by
      rw [mul_comm, ← zpow_add_one₀ two_ne_zero]
      exact zpow_le_zpow_right₀ one_le_two hq
    have hquotient : ((2 ^ 52 : ℕ) : ℚ) * (2 * 2 ^ i) ≤ num / den := hbelow.trans' (by gcongr)
    have hmagnitude : ((2 ^ 52 : ℕ) : ℚ) * (2 * 2 ^ i) ≤ units num den * 2 ^ ratioExponent num den := by
      gcongr
      exact le_units hd hbelow
    push_cast at hquotient hmagnitude ⊢
    exact ⟨by linarith, iff_of_false (by linarith) (by linarith)⟩

/-! ## Whole numbers -/

theorem ratio_pos (x : Binary64) : 0 < x.ratio.2 := by
  unfold ratio
  split
  · exact Nat.one_pos
  · exact Nat.pow_pos (by decide)

theorem ratio_eq_magnitude (x : Binary64) : (x.ratio.1 : ℚ) / x.ratio.2 = x.magnitude := by
  unfold ratio magnitude
  split
  · rename_i he
    obtain ⟨n, hn⟩ := Int.eq_ofNat_of_zero_le he
    simp [hn]
  · rename_i he
    obtain ⟨n, hn⟩ := Int.eq_ofNat_of_zero_le (show 0 ≤ -x.exponent by omega)
    rw [show x.exponent = -(n : ℤ) by omega]
    simp [div_eq_mul_inv]

theorem toInt?_eq_some {x : Binary64} {k : ℤ} : x.toInt? = some k ↔ x.value = k := by
  have hpos : (0 : ℚ) < x.ratio.2 := by exact_mod_cast x.ratio_pos
  have hwhole : ∀ k : ℤ, (x.ratio.1 % x.ratio.2 = 0 ∧ ((x.ratio.1 / x.ratio.2 : ℕ) : ℤ) = k) ↔
      x.magnitude = k := by
    intro k
    rw [← ratio_eq_magnitude, div_eq_iff hpos.ne']
    constructor
    · rintro ⟨hmod, rfl⟩
      exact_mod_cast (Nat.div_mul_cancel (Nat.dvd_of_mod_eq_zero hmod)).symm
    · intro h
      have h' : (x.ratio.1 : ℤ) = k * x.ratio.2 := by exact_mod_cast h
      have hk : 0 ≤ k := by
        by_contra hneg
        have : k * (x.ratio.2 : ℤ) < 0 :=
          mul_neg_of_neg_of_pos (not_le.mp hneg) (by exact_mod_cast x.ratio_pos)
        omega
      obtain ⟨m, rfl⟩ := Int.eq_ofNat_of_zero_le hk
      have hm : x.ratio.1 = m * x.ratio.2 := by exact_mod_cast h'
      rw [hm, Nat.mul_mod_left, Nat.mul_div_cancel _ x.ratio_pos]
      exact ⟨rfl, rfl⟩
  unfold toInt? value
  dsimp only
  rw [Option.ite_none_right_eq_some, Option.some.injEq]
  cases x.negative with
  | false => exact hwhole k
  | true =>
    simp only [if_true, neg_eq_iff_eq_neg]
    rw [hwhole (-k), Int.cast_neg]

end Binary64

namespace Decimal

theorem abs_value (d : Decimal) : |d.value| = d.significand * 10 ^ d.exponent := by
  have habs : |(d.toInt : ℚ)| = d.significand := by
    unfold toInt
    split <;> simp
  rw [value, abs_mul, habs, abs_of_pos (by positivity)]

theorem toBinary64?_of_exponent_eq_zero {d : Decimal} (h : d.exponent = 0) (hne : d.significand ≠ 0) :
    d.toBinary64? = Binary64.ofRatio d.negative d.significand 1 := by
  have hsmall : ¬(0 : ℤ) + d.significand.log2 + 1 < -400 := by omega
  rw [toBinary64?, if_neg hne, h, if_neg (by decide), if_neg hsmall]
  simp

theorem ratio_eq (d : Decimal) :
    ((d.significand * Nat.pow 10 d.exponent.toNat : ℕ) : ℚ) / (Nat.pow 10 (-d.exponent).toNat : ℕ) =
      d.significand * 10 ^ d.exponent := by
  obtain ⟨n, hn | hn⟩ := d.exponent.eq_nat_or_neg
  · simp [hn]
  · simp [hn, div_eq_mul_inv]

/-- **The numerals beyond the doubles.** -/
theorem toBinary64?_eq_none_iff {d : Decimal} :
    d.toBinary64? = none ↔ Binary64.overflow ≤ |d.value| := by
  rw [abs_value]
  unfold toBinary64?
  split_ifs with hzero hgreat hsmall
  · have hpos : 0 < Binary64.overflow := Binary64.lt_overflow.trans' (by positivity)
    simp [hzero, hpos]
  · refine iff_of_true rfl ?_
    have hone : (1 : ℚ) ≤ d.significand := by exact_mod_cast Nat.one_le_iff_ne_zero.mpr hzero
    calc Binary64.overflow ≤ 10 ^ (400 : ℤ) := Binary64.overflow_le_ten_zpow
      _ ≤ 10 ^ d.exponent := zpow_le_zpow_right₀ (by norm_num) hgreat.le
      _ ≤ d.significand * 10 ^ d.exponent := le_mul_of_one_le_left (by positivity) hone
  · refine iff_of_false (by simp) (not_le.mpr ?_)
    calc (d.significand : ℚ) * 10 ^ d.exponent
        ≤ 10 ^ ((d.significand.log2 : ℤ) + 1) * 10 ^ d.exponent := by
          gcongr
          refine (Binary64.lt_two_zpow_log2 _).le.trans ?_
          exact zpow_le_zpow_left₀ (by omega) (by norm_num) (by norm_num)
      _ = 10 ^ ((d.significand.log2 : ℤ) + 1 + d.exponent) := (zpow_add₀ (by norm_num) _ _).symm
      _ ≤ 10 ^ (0 : ℤ) := zpow_le_zpow_right₀ (by norm_num) (by omega)
      _ = 2 ^ (0 : ℤ) := rfl
      _ ≤ 2 ^ (1023 : ℤ) := zpow_le_zpow_right₀ one_le_two (by decide)
      _ < Binary64.overflow := Binary64.lt_overflow
  · have hden : 0 < Nat.pow 10 (-d.exponent).toNat := Nat.pow_pos (by decide)
    rw [Binary64.ofRatio_eq_none_iff _ hden, ratio_eq]

end Decimal

end ResourceQuery
