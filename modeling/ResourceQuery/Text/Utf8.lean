/-! # UTF-8

Characters to octets and back. Reading never fails: a malformed sequence becomes one replacement
character for each longest part that could still have begun a character.

The reader is a machine that takes one octet at a time. Between characters it has no `Pending`; inside
one it remembers the bits read, how many octets are owed, and the range the next one must lie in. An
octet out of range ends the sequence and is read again as a first octet.

* `decode_encode_append`: what was written is read back, whatever follows it.
* `byteLength_append`: lengths in octets add up; `byteLength_eq_utf8ByteSize`: they are those of texts. -/

namespace ResourceQuery.Text

/-- The number of octets of a text. -/
def byteLength : List Char → Nat
  | [] => 0
  | c :: cs => c.utf8Size + byteLength cs

@[simp] theorem byteLength_nil : byteLength [] = 0 := rfl

@[simp] theorem byteLength_cons (c : Char) (cs : List Char) :
    byteLength (c :: cs) = c.utf8Size + byteLength cs := rfl

@[simp] theorem byteLength_append (a b : List Char) :
    byteLength (a ++ b) = byteLength a + byteLength b := by
  induction a with
  | nil => simp
  | cons c a ih => simp [ih, Nat.add_assoc]

theorem byteLength_eq_utf8ByteSize (cs : List Char) :
    byteLength cs = (String.ofList cs).utf8ByteSize := by
  induction cs with
  | nil => simp
  | cons c cs ih =>
    rw [byteLength_cons, ih, String.ofList_cons, String.utf8ByteSize_append,
      String.utf8ByteSize_singleton]

namespace Utf8

/-- The octets of a text. -/
def encode (cs : List Char) : List UInt8 := cs.flatMap String.utf8EncodeChar

theorem encode_cons (c : Char) (cs : List Char) :
    encode (c :: cs) = String.utf8EncodeChar c ++ encode cs := List.flatMap_cons

theorem encode_append (a b : List Char) : encode (a ++ b) = encode a ++ encode b :=
  List.flatMap_append

theorem utf8EncodeChar_of_lt {c : Char} (h : c.toNat < 0x80) :
    String.utf8EncodeChar c = [UInt8.ofNat c.toNat] := by
  have h : c.val.toNat ≤ 127 := Nat.le_of_lt_succ h
  rw [String.utf8EncodeChar, if_pos h]
  rfl

theorem le_of_mem_utf8EncodeChar {c : Char} (h : 0x80 ≤ c.toNat) :
    ∀ b ∈ String.utf8EncodeChar c, 0x80 ≤ b.toNat := by
  have h : ¬ c.val.toNat ≤ 127 := Nat.not_le.mpr h
  intro b hb
  unfold String.utf8EncodeChar at hb
  simp only [h, if_false] at hb
  split at hb
  · simp only [List.mem_cons, List.not_mem_nil, or_false] at hb
    rcases hb with rfl | rfl <;> simp <;> omega
  split at hb
  · simp only [List.mem_cons, List.not_mem_nil, or_false] at hb
    rcases hb with rfl | rfl | rfl <;> simp <;> omega
  · simp only [List.mem_cons, List.not_mem_nil, or_false] at hb
    rcases hb with rfl | rfl | rfl | rfl <;> simp <;> omega

/-- What stands for a malformed sequence. -/
def replacement : Char := '\uFFFD'

/-- **Inside a character.** The bits so far, the octets owed, and the range of the next one. -/
structure Pending where
  bits : Nat
  owed : Nat
  low : Nat
  high : Nat

/-- Reading a first octet: a whole character, or the start of a longer one. -/
def first (b : Nat) : Char ⊕ Pending :=
  if b < 0x80 then .inl (Char.ofNat b)
  else if b < 0xC2 then .inl replacement
  else if b < 0xE0 then .inr ⟨b - 0xC0, 1, 0x80, 0xBF⟩
  else if b < 0xF0 then
    .inr ⟨b - 0xE0, 2, if b = 0xE0 then 0xA0 else 0x80, if b = 0xED then 0x9F else 0xBF⟩
  else if b < 0xF5 then
    .inr ⟨b - 0xF0, 3, if b = 0xF0 then 0x90 else 0x80, if b = 0xF4 then 0x8F else 0xBF⟩
  else .inl replacement

/-- Reading on from a state. A sequence that the text breaks off is malformed too. -/
def decodeFrom : Option Pending → List UInt8 → List Char
  | none, [] => []
  | some _, [] => [replacement]
  | none, b :: bs =>
    match first b.toNat with
    | .inl c => c :: decodeFrom none bs
    | .inr p => decodeFrom (some p) bs
  | some p, b :: bs =>
    if p.low ≤ b.toNat ∧ b.toNat ≤ p.high then
      let bits := p.bits * 64 + (b.toNat - 0x80)
      if p.owed ≤ 1 then Char.ofNat bits :: decodeFrom none bs
      else decodeFrom (some ⟨bits, p.owed - 1, 0x80, 0xBF⟩) bs
    else
      match first b.toNat with
      | .inl c => replacement :: c :: decodeFrom none bs
      | .inr q => replacement :: decodeFrom (some q) bs

/-- **The text of a sequence of octets.** -/
def decode (bs : List UInt8) : List Char := decodeFrom none bs

/-! ## Reading what was written -/

private theorem toNat_ofNat {n : Nat} (h : n < 256) : (UInt8.ofNat n).toNat = n := by
  simp [Nat.mod_eq_of_lt h]

theorem decodeFrom_tail {p : Pending} {n : Nat} {bs : List UInt8} (hn : n < 256)
    (hl : p.low ≤ n) (hh : n ≤ p.high) :
    decodeFrom (some p) (UInt8.ofNat n :: bs) =
      if p.owed ≤ 1 then Char.ofNat (p.bits * 64 + (n - 0x80)) :: decodeFrom none bs
      else decodeFrom (some ⟨p.bits * 64 + (n - 0x80), p.owed - 1, 0x80, 0xBF⟩) bs := by
  rw [decodeFrom, toNat_ofNat hn, if_pos ⟨hl, hh⟩]

theorem decodeFrom_first {n : Nat} {p : Pending} {bs : List UInt8} (hn : n < 256)
    (h : first n = .inr p) : decodeFrom none (UInt8.ofNat n :: bs) = decodeFrom (some p) bs := by
  rw [decodeFrom, toNat_ofNat hn, h]

theorem decodeFrom_encodeChar (c : Char) (bs : List UInt8) :
    decodeFrom none (String.utf8EncodeChar c ++ bs) = c :: decodeFrom none bs := by
  have hc : Char.ofNat c.val.toNat = c := Char.ofNat_toNat c
  have hv := c.valid
  generalize hg : c.val.toNat = v at hc
  have hv' : v < 0xD800 ∨ 0xDFFF < v ∧ v < 0x110000 := by
    rw [← hg]; exact hv
  unfold String.utf8EncodeChar
  simp only [hg]
  by_cases h1 : v ≤ 127
  · simp only [h1, if_true, List.cons_append, List.nil_append]
    rw [decodeFrom, toNat_ofNat (by omega)]
    have : first v = .inl (Char.ofNat v) := by unfold first; rw [if_pos (by omega)]
    rw [this, hc]
  by_cases h2 : v ≤ 2047
  · simp only [h1, h2, if_true, if_false, List.cons_append, List.nil_append]
    have hf : first (v / 64 % 32 + 192) = .inr ⟨v / 64, 1, 0x80, 0xBF⟩ := by
      unfold first
      rw [if_neg (by omega), if_neg (by omega), if_pos (by omega),
        show v / 64 % 32 + 192 - 0xC0 = v / 64 by omega]
    rw [decodeFrom_first (by omega) hf, decodeFrom_tail (by omega) (by simp) (by simp; omega)]
    simp only [Nat.le_refl, if_true]
    rw [show v / 64 * 64 + (v % 64 + 128 - 0x80) = v by omega, hc]
  by_cases h3 : v ≤ 65535
  · simp only [h1, h2, h3, if_true, if_false, List.cons_append, List.nil_append]
    have hf : first (v / 4096 % 16 + 224) = .inr ⟨v / 4096, 2,
        if v / 4096 % 16 + 224 = 0xE0 then 0xA0 else 0x80,
        if v / 4096 % 16 + 224 = 0xED then 0x9F else 0xBF⟩ := by
      unfold first
      rw [if_neg (by omega), if_neg (by omega), if_neg (by omega), if_pos (by omega),
        show v / 4096 % 16 + 224 - 0xE0 = v / 4096 by omega]
    rw [decodeFrom_first (by omega) hf,
      decodeFrom_tail (by omega) (by dsimp only; split <;> omega) (by dsimp only; split <;> omega)]
    simp only [show ¬ 2 ≤ 1 by omega, if_false]
    rw [decodeFrom_tail (by omega) (by simp) (by simp; omega)]
    simp only [show 2 - 1 ≤ 1 by omega, if_true]
    rw [show (v / 4096 * 64 + (v / 64 % 64 + 128 - 0x80)) * 64 + (v % 64 + 128 - 0x80) = v by omega,
      hc]
  · simp only [h1, h2, h3, if_false, List.cons_append, List.nil_append]
    have hf : first (v / 262144 % 8 + 240) = .inr ⟨v / 262144, 3,
        if v / 262144 % 8 + 240 = 0xF0 then 0x90 else 0x80,
        if v / 262144 % 8 + 240 = 0xF4 then 0x8F else 0xBF⟩ := by
      unfold first
      rw [if_neg (by omega), if_neg (by omega), if_neg (by omega), if_neg (by omega),
        if_pos (by omega), show v / 262144 % 8 + 240 - 0xF0 = v / 262144 by omega]
    rw [decodeFrom_first (by omega) hf,
      decodeFrom_tail (by omega) (by dsimp only; split <;> omega) (by dsimp only; split <;> omega)]
    simp only [show ¬ 3 ≤ 1 by omega, if_false]
    rw [decodeFrom_tail (by omega) (by simp) (by simp; omega)]
    simp only [show ¬ 3 - 1 ≤ 1 by omega, if_false]
    rw [decodeFrom_tail (by omega) (by simp) (by simp; omega)]
    simp only [show 3 - 1 - 1 ≤ 1 by omega, if_true]
    rw [show ((v / 262144 * 64 + (v / 4096 % 64 + 128 - 0x80)) * 64 + (v / 64 % 64 + 128 - 0x80)) * 64
      + (v % 64 + 128 - 0x80) = v by omega, hc]

/-- **Reading what was written**, and what follows it. -/
theorem decode_encode_append (cs : List Char) (bs : List UInt8) :
    decode (encode cs ++ bs) = cs ++ decode bs := by
  induction cs with
  | nil => rfl
  | cons c cs ih =>
    rw [encode_cons, List.append_assoc, decode, decodeFrom_encodeChar]
    exact congrArg (c :: ·) ih

end Utf8

end ResourceQuery.Text
