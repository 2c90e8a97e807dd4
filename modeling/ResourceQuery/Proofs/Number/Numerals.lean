import Mathlib
import ResourceQuery.Number.Decimal

/-! # The grammar of numerals

The texts that are numerals, as a language: `[+-]?([0-9]+(\.[0-9]*)?|\.[0-9]+)([eE][+-]?[0-9]+)?`. The reader
of numerals reads all of them and nothing else (`isSome_parse?`). Each of its parts is met by a part of the
language, since what may come after a part cannot carry it on: after digits there is no further digit, and
neither a sign nor a point begins a power of ten.

* `Says`: the rational number that a numeral says, laid down without the reader. Numerals and no other texts
  say one (`mem_numeral`), and it is the one that is read (`exists_parse?_of_says`).
* `Whole`: the numerals of a sign and digits, with the whole number that they say.
* `parse?_of_whole`, `whole_toString`: how they are read, and that the decimal text of a number is one. -/

namespace ResourceQuery

theorem isDigit_iff {c : Char} : c.isDigit = true ↔ '0' ≤ c ∧ c ≤ '9' := by
  simp [Char.isDigit, Char.le_def, UInt32.le_iff_toNat_le]

namespace Decimal

open scoped Computability

/-! ## The language -/

/-- A decimal digit. -/
def digit : Language Char := {cs | ∃ c, '0' ≤ c ∧ c ≤ '9' ∧ cs = [c]}

/-- Digits, at least one. -/
def digits : Language Char := digit * digit∗

/-- A sign, or none. -/
def sign : Language Char := 1 + {['+']} + {['-']}

/-- Digits with at most one point among or around them. -/
def mantissa : Language Char := digits * (1 + {['.']} * digit∗) + {['.']} * digits

/-- A power of ten, or none. -/
def power : Language Char := 1 + ({['e']} + {['E']}) * sign * digits

/-- **The numerals.** -/
def numeral : Language Char := sign * mantissa * power

/-! ## The numbers that they say -/

/-- The number that digits after a sign say. -/
def signed (s ds : List Char) : ℤ :=
  if s = ['-'] then -(Nat.ofDigitChars 10 ds 0 : ℤ) else Nat.ofDigitChars 10 ds 0

/-- **The text of a whole number**, of any length: digits after a sign or none. -/
def Whole (cs : List Char) (n : ℤ) : Prop := ∃ s ∈ sign, ∃ ds ∈ digits, cs = s ++ ds ∧ n = signed s ds

/-- The exponent of a power of ten. -/
def Exponent (p : List Char) (k : ℤ) : Prop :=
  p = [] ∧ k = 0 ∨ ∃ c cs, (c = 'e' ∨ c = 'E') ∧ Whole cs k ∧ p = c :: cs

/-- **The number that a numeral says**: digits before and after a point, taken together, and a power of ten
that counts the places after the point. -/
def Says (cs : List Char) (v : ℚ) : Prop :=
  ∃ s ∈ sign, ∃ w f point p k, w ++ f ∈ digits ∧ (point = ['.'] ∨ point = [] ∧ f = []) ∧ Exponent p k ∧
    cs = s ++ (w ++ (point ++ (f ++ p))) ∧ v = signed s (w ++ f) * 10 ^ (k - f.length)

/-- The value of a numeral that was read. -/
def value (d : Decimal) : ℚ := d.toInt * 10 ^ d.exponent

/-! ## Digits -/

theorem mem_singleton {cs ds : List Char} : cs ∈ ({ds} : Language Char) ↔ cs = ds := Iff.rfl

theorem mem_kstar_digit {cs : List Char} : cs ∈ digit∗ ↔ ∀ c ∈ cs, c.isDigit = true := by
  rw [Language.mem_kstar]
  constructor
  · rintro ⟨parts, rfl, hparts⟩ c hc
    obtain ⟨part, hpart, hc⟩ := List.mem_flatten.mp hc
    obtain ⟨d, hlower, hupper, rfl⟩ := hparts part hpart
    obtain rfl := List.mem_singleton.mp hc
    exact isDigit_iff.mpr ⟨hlower, hupper⟩
  · intro h
    refine ⟨cs.map ([·]), (List.flatMap_singleton' cs).symm, fun part hpart => ?_⟩
    obtain ⟨c, hc, rfl⟩ := List.mem_map.mp hpart
    obtain ⟨hlower, hupper⟩ := isDigit_iff.mp (h c hc)
    exact ⟨c, hlower, hupper, rfl⟩

theorem mem_digits {cs : List Char} : cs ∈ digits ↔ cs ≠ [] ∧ ∀ c ∈ cs, c.isDigit = true := by
  simp only [digits, Language.mem_mul, mem_kstar_digit]
  constructor
  · rintro ⟨_, ⟨c, hlower, hupper, rfl⟩, ds, hds, rfl⟩
    refine ⟨by simp, fun d hd => ?_⟩
    rcases List.mem_cons.mp hd with rfl | hd
    · exact isDigit_iff.mpr ⟨hlower, hupper⟩
    · exact hds d hd
  · rintro ⟨hne, h⟩
    obtain ⟨c, ds, rfl⟩ := List.exists_cons_of_ne_nil hne
    obtain ⟨hlower, hupper⟩ := isDigit_iff.mp (h c List.mem_cons_self)
    exact ⟨[c], ⟨c, hlower, hupper, rfl⟩, ds, fun d hd => h d (List.mem_cons_of_mem c hd), rfl⟩

theorem mem_sign {s : List Char} : s ∈ sign ↔ s = [] ∨ s = ['+'] ∨ s = ['-'] := by
  simp only [sign, Language.mem_add, Language.mem_one, mem_singleton, or_assoc]

theorem head?_of_digits {ds : List Char} (h : ds ∈ digits) (rest : List Char) :
    ∀ c ∈ (ds ++ rest).head?, c.isDigit = true := by
  obtain ⟨hne, hds⟩ := mem_digits.mp h
  obtain ⟨d, ds, rfl⟩ := List.exists_cons_of_ne_nil hne
  intro c hc
  obtain rfl : d = c := by simpa using hc
  exact hds d List.mem_cons_self

/-- Digits before and after a point, which stands alone only without digits after it. -/
theorem mem_mantissa {m : List Char} : m ∈ mantissa ↔
    ∃ w f point, w ++ f ∈ digits ∧ (point = ['.'] ∨ point = [] ∧ f = []) ∧ m = w ++ (point ++ f) := by
  simp only [mantissa, mul_add, mul_one, Language.mem_add, Language.mem_mul, mem_singleton, mem_kstar_digit,
    mem_digits]
  constructor
  · rintro ((⟨hne, hw⟩ | ⟨w, ⟨hne, hw⟩, _, ⟨_, rfl, f, hf, rfl⟩, rfl⟩) | ⟨_, rfl, f, ⟨hne, hf⟩, rfl⟩)
    · exact ⟨m, [], [], by simpa using ⟨hne, hw⟩, .inr ⟨rfl, rfl⟩, by simp⟩
    · refine ⟨w, f, ['.'], ⟨by simp [hne], fun c hc => ?_⟩, .inl rfl, rfl⟩
      exact (List.mem_append.mp hc).elim (hw c) (hf c)
    · exact ⟨[], f, ['.'], ⟨hne, hf⟩, .inl rfl, rfl⟩
  · rintro ⟨w, f, point, ⟨hne, hdigits⟩, hpoint, rfl⟩
    have hw : ∀ c ∈ w, c.isDigit = true := fun c hc => hdigits c (List.mem_append_left f hc)
    have hf : ∀ c ∈ f, c.isDigit = true := fun c hc => hdigits c (List.mem_append_right w hc)
    rcases hpoint with rfl | ⟨rfl, rfl⟩
    · by_cases hnil : w = []
      · subst hnil
        exact .inr ⟨_, rfl, f, ⟨hne, hf⟩, rfl⟩
      · exact .inl (.inr ⟨w, ⟨hnil, hw⟩, _, ⟨_, rfl, f, hf, rfl⟩, rfl⟩)
    · rw [List.append_nil] at hne
      exact .inl (.inl (by simpa using ⟨hne, hw⟩))

theorem mem_power {p : List Char} : p ∈ power ↔ ∃ k, Exponent p k := by
  simp only [power, Language.mem_add, Language.mem_one, Language.mem_mul, mem_singleton]
  constructor
  · rintro (rfl | ⟨_, ⟨_, rfl | rfl, s, hs, rfl⟩, ds, hds, rfl⟩)
    · exact ⟨0, .inl ⟨rfl, rfl⟩⟩
    · exact ⟨_, .inr ⟨'e', _, .inl rfl, ⟨s, hs, ds, hds, rfl, rfl⟩, rfl⟩⟩
    · exact ⟨_, .inr ⟨'E', _, .inr rfl, ⟨s, hs, ds, hds, rfl, rfl⟩, rfl⟩⟩
  · rintro ⟨k, ⟨rfl, -⟩ | ⟨c, _, hc, ⟨s, hs, ds, hds, rfl, -⟩, rfl⟩⟩
    · exact .inl rfl
    · exact .inr ⟨c :: s, ⟨[c], by simpa using hc, s, hs, rfl⟩, ds, hds, rfl⟩

/-- **A numeral says a number**, and only a numeral does. -/
theorem mem_numeral {cs : List Char} : cs ∈ numeral ↔ ∃ v, Says cs v := by
  simp only [numeral, Language.mem_mul, mem_mantissa, mem_power]
  constructor
  · rintro ⟨_, ⟨s, hs, _, ⟨w, f, point, hdigits, hpoint, rfl⟩, rfl⟩, p, ⟨k, hp⟩, rfl⟩
    exact ⟨_, s, hs, w, f, point, p, k, hdigits, hpoint, hp, by simp, rfl⟩
  · rintro ⟨_, s, hs, w, f, point, p, k, hdigits, hpoint, hp, rfl, -⟩
    exact ⟨_, ⟨s, hs, _, ⟨w, f, point, hdigits, hpoint, rfl⟩, rfl⟩, p, ⟨k, hp⟩, by simp⟩

/-! ## The parts of a numeral -/

theorem isDigit_of_mem_spanDigits {cs : List Char} {c : Char} (h : c ∈ (spanDigits cs).1) :
    c.isDigit = true := List.mem_takeWhile_imp h

theorem exists_append_of_spanDigits (cs : List Char) : ∃ w r, cs = w ++ r ∧
    (∀ c ∈ w, c.isDigit = true) ∧ ∀ c ∈ r.head?, c.isDigit = false := by
  refine ⟨_, _, (spanDigits_append_eq cs).symm, fun c => isDigit_of_mem_spanDigits, fun c hc => ?_⟩
  have hnot := List.head?_dropWhile_not Char.isDigit cs
  rw [show cs.dropWhile Char.isDigit = (spanDigits cs).2 from rfl, Option.mem_def.mp hc] at hnot
  simpa using hnot

theorem spanDigits_eq_self {ds : List Char} (h : ∀ c ∈ ds, c.isDigit = true) :
    spanDigits ds = (ds, []) := by
  have hspan : spanDigits (ds ++ []) = (ds, []) := span_digits_append h (by simp)
  rwa [List.append_nil] at hspan

theorem spanSign_append {s rest : List Char} (hs : s ∈ sign) (hrest : ∀ c ∈ rest.head?, c ≠ '+' ∧ c ≠ '-') :
    spanSign (s ++ rest) = (decide (s = ['-']), rest) := by
  rcases mem_sign.mp hs with rfl | rfl | rfl
  · cases rest with
    | nil => rfl
    | cons c rest =>
      obtain ⟨hplus, hminus⟩ := hrest c rfl
      simp [spanSign, hplus, hminus]
  · rfl
  · rfl

theorem exists_spanSign (cs : List Char) : ∃ s ∈ sign, cs = s ++ (spanSign cs).2 := by
  unfold spanSign
  split
  · exact ⟨['-'], mem_sign.mpr (by simp), rfl⟩
  · exact ⟨['+'], mem_sign.mpr (by simp), rfl⟩
  · exact ⟨[], mem_sign.mpr (by simp), rfl⟩

theorem no_sign_of_isDigit {c : Char} (hc : c.isDigit = true) : c ≠ '+' ∧ c ≠ '-' := by
  constructor <;> rintro rfl <;> simp at hc

theorem no_digit_of_exponent {p : List Char} {k : ℤ} (hp : Exponent p k) :
    ∀ c ∈ p.head?, c.isDigit = false ∧ c ≠ '.' := by
  rcases hp with ⟨rfl, -⟩ | ⟨c, cs, hc, -, rfl⟩
  · simp
  · intro d hd
    obtain rfl : c = d := by simpa using hd
    rcases hc with rfl | rfl <;> decide

/-! ## Reading what is written -/

theorem power?_of_exponent {p : List Char} {k : ℤ} (hp : Exponent p k) : power? p = some k := by
  rcases hp with ⟨rfl, rfl⟩ | ⟨c, cs, hc, ⟨s, hs, ds, hds, rfl, rfl⟩, rfl⟩
  · rfl
  · have hhead : ∀ d ∈ ds.head?, d ≠ '+' ∧ d ≠ '-' := fun d hd =>
      no_sign_of_isDigit (head?_of_digits hds [] d (by simpa using hd))
    obtain ⟨hne, hdigits⟩ := mem_digits.mp hds
    simp [power?, hc, spanSign_append hs hhead, spanDigits_eq_self hdigits, hne, signed, digitsValue,
      Nat.ofDigitChars]

theorem unsigned?_point (negative : Bool) {w : List Char} (hw : ∀ c ∈ w, c.isDigit = true) (r : List Char) :
    unsigned? negative (w ++ '.' :: r) =
      if w = [] ∧ (spanDigits r).1 = [] then none
      else (power? (spanDigits r).2).map fun p =>
        ⟨negative, digitsValue (w ++ (spanDigits r).1), p - ((spanDigits r).1.length : ℤ), false⟩ := by
  have hspan : spanDigits (w ++ '.' :: r) = (w, '.' :: r) := span_digits_append hw (by simp)
  rw [unsigned?, hspan]
  rfl

theorem unsigned?_of_head? (negative : Bool) {w r : List Char} (hw : ∀ c ∈ w, c.isDigit = true)
    (hr : ∀ c ∈ r.head?, c.isDigit = false ∧ c ≠ '.') :
    unsigned? negative (w ++ r) =
      if w = [] then none else (power? r).map fun p => ⟨negative, digitsValue w, p, r.isEmpty⟩ := by
  have hspan : spanDigits (w ++ r) = (w, r) := span_digits_append hw fun c hc => (hr c hc).1
  rw [unsigned?, hspan]
  cases r with
  | nil => rfl
  | cons c r =>
    have hc := (hr c rfl).2
    simp [hc]

theorem unsigned?_of_parts (negative : Bool) {w f point p : List Char} {k : ℤ} (hdigits : w ++ f ∈ digits)
    (hpoint : point = ['.'] ∨ point = [] ∧ f = []) (hp : Exponent p k) :
    unsigned? negative (w ++ (point ++ (f ++ p))) =
      some ⟨negative, digitsValue (w ++ f), k - f.length, (point ++ p).isEmpty⟩ := by
  obtain ⟨hne, hdigits⟩ := mem_digits.mp hdigits
  have hw : ∀ c ∈ w, c.isDigit = true := fun c hc => hdigits c (List.mem_append_left f hc)
  have hf : ∀ c ∈ f, c.isDigit = true := fun c hc => hdigits c (List.mem_append_right w hc)
  have hhead := no_digit_of_exponent hp
  rcases hpoint with rfl | ⟨rfl, rfl⟩
  · have hspan : spanDigits (f ++ p) = (f, p) := span_digits_append hf fun c hc => (hhead c hc).1
    rw [List.singleton_append, unsigned?_point negative hw, hspan, power?_of_exponent hp,
      if_neg (by simpa using hne)]
    rfl
  · rw [List.append_nil] at hne
    rw [List.nil_append, List.nil_append, unsigned?_of_head? negative hw hhead, power?_of_exponent hp,
      if_neg hne]
    simp

theorem no_sign_of_digits {w f point p : List Char} (hdigits : w ++ f ∈ digits)
    (hpoint : point = ['.'] ∨ point = [] ∧ f = []) :
    ∀ c ∈ (w ++ (point ++ (f ++ p))).head?, c ≠ '+' ∧ c ≠ '-' := by
  rcases hpoint with rfl | ⟨rfl, rfl⟩
  · cases w with
    | nil => simp
    | cons d w =>
      intro c hc
      exact no_sign_of_isDigit (head?_of_digits hdigits [] c (by simpa using hc))
  · rw [List.append_nil] at hdigits
    exact fun c hc => no_sign_of_isDigit (head?_of_digits hdigits _ c hc)

/-- **A numeral is read as the number that it says.** -/
theorem parse?_of_parts {s w f point p : List Char} {k : ℤ} (hs : s ∈ sign) (hdigits : w ++ f ∈ digits)
    (hpoint : point = ['.'] ∨ point = [] ∧ f = []) (hp : Exponent p k) :
    parse? (s ++ (w ++ (point ++ (f ++ p)))) =
      some ⟨decide (s = ['-']), digitsValue (w ++ f), k - f.length, (point ++ p).isEmpty⟩ := by
  rw [parse?, spanSign_append hs (no_sign_of_digits hdigits hpoint)]
  exact unsigned?_of_parts _ hdigits hpoint hp

theorem exists_parse?_of_says {cs : List Char} {v : ℚ} (h : Says cs v) :
    ∃ d, parse? cs = some d ∧ d.value = v ∧ (d.integral = true → d.exponent = 0) := by
  obtain ⟨s, hs, w, f, point, p, k, hdigits, hpoint, hp, rfl, rfl⟩ := h
  refine ⟨_, parse?_of_parts hs hdigits hpoint hp, ?_, fun hintegral => ?_⟩
  · simp only [value, toInt, signed, decide_eq_true_eq]
    rfl
  · obtain ⟨rfl, rfl⟩ : point = [] ∧ p = [] := by simpa using hintegral
    obtain rfl : f = [] := by simpa using hpoint
    obtain rfl : k = 0 := by simpa [Exponent] using hp
    rfl

/-! ## Nothing else is read -/

theorem mem_power_of_isSome {cs : List Char} (h : (power? cs).isSome) : cs ∈ power := by
  refine mem_power.mpr ?_
  cases cs with
  | nil => exact ⟨0, .inl ⟨rfl, rfl⟩⟩
  | cons c cs =>
    have hread : (c = 'e' ∨ c = 'E') ∧ (spanDigits (spanSign cs).2).1 ≠ [] ∧
        (spanDigits (spanSign cs).2).2 = [] := by
      simp only [power?] at h
      split at h
      · rename_i hc
        split at h
        · simp at h
        · rename_i hbad
          exact ⟨hc, by simpa only [not_or, not_not] using hbad⟩
      · simp at h
    obtain ⟨hc, hne, hend⟩ := hread
    obtain ⟨s, hs, hcs⟩ := exists_spanSign cs
    have hspan := spanDigits_append_eq (spanSign cs).2
    rw [hend, List.append_nil] at hspan
    have hdigits : (spanSign cs).2 ∈ digits :=
      mem_digits.mpr ⟨hspan ▸ hne, fun c hc => isDigit_of_mem_spanDigits (hspan.symm ▸ hc)⟩
    exact ⟨_, .inr ⟨c, cs, hc, ⟨s, hs, _, hdigits, hcs, rfl⟩, rfl⟩⟩

theorem mem_of_isSome_unsigned? {negative : Bool} {cs : List Char} (h : (unsigned? negative cs).isSome) :
    cs ∈ mantissa * power := by
  obtain ⟨w, r, rfl, hw, hr⟩ := exists_append_of_spanDigits cs
  by_cases hpoint : ∃ r', r = '.' :: r'
  · obtain ⟨r', rfl⟩ := hpoint
    rw [unsigned?_point negative hw] at h
    split at h
    · simp at h
    · rename_i hne
      rw [Option.isSome_map] at h
      have hdigits : w ++ (spanDigits r').1 ∈ digits := by
        refine mem_digits.mpr ⟨by simpa using hne, fun c hc => ?_⟩
        exact (List.mem_append.mp hc).elim (hw c) isDigit_of_mem_spanDigits
      refine Language.mem_mul.mpr ⟨w ++ (['.'] ++ (spanDigits r').1),
        mem_mantissa.mpr ⟨w, _, ['.'], hdigits, .inl rfl, rfl⟩, _, mem_power_of_isSome h, ?_⟩
      simp [spanDigits_append_eq]
  · have hhead : ∀ c ∈ r.head?, c.isDigit = false ∧ c ≠ '.' := by
      refine fun c hc => ⟨hr c hc, ?_⟩
      rintro rfl
      exact hpoint ⟨r.tail, (List.cons_head?_tail hc).symm⟩
    rw [unsigned?_of_head? negative hw hhead] at h
    split at h
    · simp at h
    · rename_i hne
      rw [Option.isSome_map] at h
      have hdigits : w ++ [] ∈ digits := by simpa using mem_digits.mpr ⟨hne, hw⟩
      exact Language.mem_mul.mpr ⟨w, mem_mantissa.mpr ⟨w, [], [], hdigits, .inr ⟨rfl, rfl⟩, by simp⟩, r,
        mem_power_of_isSome h, rfl⟩

/-- **The reader reads the numerals, and nothing else.** -/
theorem isSome_parse? {cs : List Char} : (parse? cs).isSome ↔ cs ∈ numeral := by
  constructor
  · intro h
    obtain ⟨s, hs, hcs⟩ := exists_spanSign cs
    rw [numeral, mul_assoc]
    exact Language.mem_mul.mpr ⟨s, hs, _, mem_of_isSome_unsigned? h, hcs.symm⟩
  · intro h
    obtain ⟨v, s, hs, w, f, point, p, k, hdigits, hpoint, hp, rfl, -⟩ := mem_numeral.mp h
    rw [parse?_of_parts hs hdigits hpoint hp]
    rfl

instance (cs : List Char) : Decidable (cs ∈ numeral) := decidable_of_iff _ isSome_parse?

/-! ## Whole numbers -/

theorem parse?_of_whole {cs : List Char} {n : ℤ} (h : Whole cs n) :
    ∃ d, parse? cs = some d ∧ d.integral = true ∧ d.exponent = 0 ∧ d.toInt = n := by
  obtain ⟨s, hs, ds, hds, rfl, rfl⟩ := h
  have hread := parse?_of_parts (f := []) (p := []) hs (by simpa using hds) (.inr ⟨rfl, rfl⟩)
    (.inl ⟨rfl, rfl⟩)
  simp only [List.append_nil] at hread
  exact ⟨_, hread, rfl, rfl, by simp [toInt, signed]; rfl⟩

theorem toDigits_mem_digits (m : ℕ) : Nat.toDigits 10 m ∈ digits :=
  mem_digits.mpr ⟨Nat.toDigits_ne_nil, fun _ => Nat.isDigit_of_mem_toDigits (by decide) le_rfl⟩

theorem whole_toString (n : ℤ) : Whole (toString n).toList n := by
  cases n with
  | ofNat m =>
    have htext : (toString (Int.ofNat m)).toList = Nat.toDigits 10 m := String.toList_ofList
    rw [htext]
    exact ⟨[], mem_sign.mpr (by simp), _, toDigits_mem_digits m, rfl, by simp [signed]⟩
  | negSucc m =>
    have htext : (toString (Int.negSucc m)).toList = '-' :: Nat.toDigits 10 (m + 1) := by
      change ("-" ++ String.ofList (Nat.toDigits 10 (m + 1))).toList = _
      simp
    rw [htext]
    exact ⟨['-'], mem_sign.mpr (by simp), _, toDigits_mem_digits (m + 1), rfl,
      by simp [signed, Int.negSucc_eq]⟩

end Decimal

end ResourceQuery
