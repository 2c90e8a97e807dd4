import ResourceQuery.Text.Hex
import ResourceQuery.Text.Utf8

/-! # Percent escapes

`%` and two hexadecimal digits stand for one octet. A `%` that no such pair follows stands for
itself, so every text can be read. In a form, which is what a query string is, `+` is a space.

* `decode_append`: text without a `%` stands for itself.
* `decode_append_of_escaped`: escaped text is read back, whichever octets were escaped beyond those that
  must be (`Escaped`). This is what `encode` writes (`escaped_encode`). -/

namespace ResourceQuery.Text.Percent

/-- The octet that two digits stand for, which are given as octets themselves. -/
def octet? (h l : UInt8) : Option UInt8 :=
  match hexValue? (Char.ofNat h.toNat), hexValue? (Char.ofNat l.toNat) with
  | some x, some y => some (UInt8.ofNat (16 * x + y))
  | _, _ => none

/-- Escapes replaced by the octets they stand for. -/
def unescape : List UInt8 → List UInt8
  | [] => []
  | [b] => [b]
  | [b, b'] => [b, b']
  | b :: h :: l :: bs =>
    if b = 0x25 then
      match octet? h l with
      | some o => o :: unescape bs
      | none => b :: unescape (h :: l :: bs)
    else b :: unescape (h :: l :: bs)

/-- An octet as an escape. -/
def escape (b : UInt8) : List Char := ['%', upperHexDigit (b.toNat / 16), upperHexDigit (b.toNat % 16)]

/-- The text with the characters that satisfy `p` escaped, octet by octet. -/
def encode (p : Char → Bool) (cs : List Char) : List Char :=
  cs.flatMap fun c => if p c then (String.utf8EncodeChar c).flatMap escape else [c]

/-- **The text that an escaped text stands for.** -/
def decode (cs : List Char) : List Char := Utf8.decode (unescape (Utf8.encode cs))

/-- The same in a form, where `+` is a space. -/
def decodeForm (cs : List Char) : List Char := decode (cs.map fun c => if c = '+' then ' ' else c)

/-! ## Octets of a text -/

theorem ofNat_toNat_of_lt {c : Char} (h : c.toNat < 0x80) :
    Char.ofNat (UInt8.ofNat c.toNat).toNat = c := by
  have hoctet : (UInt8.ofNat c.toNat).toNat = c.toNat := by
    rw [UInt8.toNat_ofNat']
    omega
  rw [hoctet, Char.ofNat_toNat]

theorem percent_ne_octet {c : Char} (h : c.toNat < 0x80) (hc : c ≠ '%') : UInt8.ofNat c.toNat ≠ 0x25 := by
  intro hoctet
  have hchar := ofNat_toNat_of_lt h
  rw [hoctet] at hchar
  exact hc hchar.symm

theorem percent_not_mem_encode {cs : List Char} (h : '%' ∉ cs) : 0x25 ∉ Utf8.encode cs := by
  intro hb
  obtain ⟨c, hc, hb⟩ := List.mem_flatMap.mp hb
  by_cases hascii : c.toNat < 0x80
  · rw [Utf8.utf8EncodeChar_of_lt hascii, List.mem_singleton] at hb
    exact percent_ne_octet hascii (fun hpercent => h (hpercent ▸ hc)) hb.symm
  · exact absurd (Utf8.le_of_mem_utf8EncodeChar (Nat.le_of_not_lt hascii) _ hb) (by decide)

/-! ## Text without escapes -/

theorem unescape_cons {b : UInt8} (hb : b ≠ 0x25) (bs : List UInt8) :
    unescape (b :: bs) = b :: unescape bs := by
  rcases bs with _ | ⟨h, _ | ⟨l, bs⟩⟩
  · rfl
  · rfl
  · rw [unescape, if_neg hb]

theorem unescape_append {bs : List UInt8} (h : 0x25 ∉ bs) (rest : List UInt8) :
    unescape (bs ++ rest) = bs ++ unescape rest := by
  induction bs with
  | nil => rfl
  | cons b bs ih =>
    rw [List.cons_append, unescape_cons (List.ne_of_not_mem_cons h).symm,
      ih (List.not_mem_of_not_mem_cons h), List.cons_append]

theorem decode_append {cs : List Char} (h : '%' ∉ cs) (rest : List Char) :
    decode (cs ++ rest) = cs ++ decode rest := by
  rw [decode, Utf8.encode_append, unescape_append (percent_not_mem_encode h), Utf8.decode_encode_append,
    decode]

theorem decode_of_not_mem {cs : List Char} (h : '%' ∉ cs) : decode cs = cs := by
  have happend := decode_append h []
  rwa [List.append_nil, show decode [] = [] from rfl, List.append_nil] at happend

/-! ## Escaped text -/

/-- **Escaped text for octets.** Each stands there as an escape, with digits in either case, or as the
character below 128 that it is the octet of, unless this is the percent sign. -/
inductive Escaped : List UInt8 → List Char → Prop where
  | nil : Escaped [] []
  | plain {c : Char} {bs : List UInt8} {cs : List Char} (hascii : c.toNat < 0x80) (hpercent : c ≠ '%')
      (h : Escaped bs cs) : Escaped (UInt8.ofNat c.toNat :: bs) (c :: cs)
  | octet {high low : Char} {x y : Nat} {bs : List UInt8} {cs : List Char}
      (hhigh : hexValue? high = some x) (hlow : hexValue? low = some y) (h : Escaped bs cs) :
      Escaped (UInt8.ofNat (16 * x + y) :: bs) ('%' :: high :: low :: cs)

theorem Escaped.append {bs bs' : List UInt8} {cs cs' : List Char} (h : Escaped bs cs)
    (h' : Escaped bs' cs') : Escaped (bs ++ bs') (cs ++ cs') := by
  induction h with
  | nil => exact h'
  | plain hascii hpercent _ ih => exact .plain hascii hpercent ih
  | octet hhigh hlow _ ih => exact .octet hhigh hlow ih

theorem unescape_octet {h l : Char} {x y : Nat} (hx : hexValue? h = some x) (hy : hexValue? l = some y)
    (bs : List UInt8) : unescape (0x25 :: UInt8.ofNat h.toNat :: UInt8.ofNat l.toNat :: bs) =
      UInt8.ofNat (16 * x + y) :: unescape bs := by
  have hoctet : octet? (UInt8.ofNat h.toNat) (UInt8.ofNat l.toNat) = some (UInt8.ofNat (16 * x + y)) := by
    rw [octet?, ofNat_toNat_of_lt (lt_of_hexValue? hx).1, ofNat_toNat_of_lt (lt_of_hexValue? hy).1, hx, hy]
  rw [unescape, if_pos rfl, hoctet]

theorem unescape_append_of_escaped {bs : List UInt8} {cs : List Char} (h : Escaped bs cs)
    (rest : List UInt8) : unescape (Utf8.encode cs ++ rest) = bs ++ unescape rest := by
  induction h with
  | nil => rfl
  | plain hascii hpercent _ ih =>
    rw [Utf8.encode_cons, Utf8.utf8EncodeChar_of_lt hascii, List.singleton_append, List.cons_append,
      unescape_cons (percent_ne_octet hascii hpercent), ih, List.cons_append]
  | octet hhigh hlow _ ih =>
    have hpercent : String.utf8EncodeChar '%' = [0x25] := Utf8.utf8EncodeChar_of_lt (by decide)
    rw [Utf8.encode_cons, Utf8.encode_cons, Utf8.encode_cons, hpercent,
      Utf8.utf8EncodeChar_of_lt (lt_of_hexValue? hhigh).1, Utf8.utf8EncodeChar_of_lt (lt_of_hexValue? hlow).1]
    simp only [List.cons_append, List.nil_append]
    rw [unescape_octet hhigh hlow, ih]

/-- **Escaped text is read back**, whatever follows it. -/
theorem decode_append_of_escaped {text cs : List Char} (h : Escaped (Utf8.encode text) cs)
    (rest : List Char) : decode (cs ++ rest) = text ++ decode rest := by
  rw [decode, Utf8.encode_append, unescape_append_of_escaped h, Utf8.decode_encode_append, decode]

theorem escaped_escape (bs : List UInt8) : Escaped bs (bs.flatMap escape) := by
  induction bs with
  | nil => exact .nil
  | cons b bs ih =>
    have hb : b.toNat < 256 := UInt8.toNat_lt b
    have hvalue : UInt8.ofNat (16 * (b.toNat / 16) + b.toNat % 16) = b := by
      rw [Nat.div_add_mod, UInt8.ofNat_toNat]
    have h := Escaped.octet (hexValue?_upperHexDigit (show b.toNat / 16 < 16 by omega))
      (hexValue?_upperHexDigit (show b.toNat % 16 < 16 by omega)) ih
    rwa [hvalue] at h

/-- **What is written is escaped text**, if the characters that must be escaped are. -/
theorem escaped_encode {p : Char → Bool} (hp : ∀ c, p c = false → c.toNat < 0x80 ∧ c ≠ '%')
    (cs : List Char) : Escaped (Utf8.encode cs) (encode p cs) := by
  induction cs with
  | nil => exact .nil
  | cons c cs ih =>
    rw [Utf8.encode_cons, encode, List.flatMap_cons]
    refine Escaped.append ?_ ih
    by_cases hc : p c = true
    · rw [if_pos hc]
      exact escaped_escape _
    · rw [if_neg hc]
      obtain ⟨hascii, hpercent⟩ := hp c (by simpa using hc)
      rw [Utf8.utf8EncodeChar_of_lt hascii]
      exact .plain hascii hpercent .nil

end ResourceQuery.Text.Percent
