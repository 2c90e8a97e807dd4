/-! # Readers that can fail

A reader takes a piece off the front of a text, or says why it cannot. `separated` reads items with a
separator between them. It is given as many steps as there are characters, which is enough when every
separator takes at least one character and no item gives any back: `separated_eq` is then its whole
description, without the count.

* `Shrinks`: what a reader leaves is no longer than what it was given. -/

namespace ResourceQuery.Text

/-- Taking a piece off the front of a text. -/
abbrev Reader (ε α : Type) := List Char → Except ε (α × List Char)

variable {ε α : Type}

/-- Items with separators between them, in at most `n` steps. `sep?` is the text after a separator,
if the text starts with one. -/
def separatedIn (item : Reader ε α) (sep? : List Char → Option (List Char)) :
    Nat → Reader ε (List α)
  | 0, cs => .ok ([], cs)
  | n + 1, cs =>
    match item cs with
    | .error e => .error e
    | .ok (a, r) =>
      match sep? r with
      | none => .ok ([a], r)
      | some r' =>
        match separatedIn item sep? n r' with
        | .error e => .error e
        | .ok (as, r'') => .ok (a :: as, r'')

/-- **One item or more, with separators between them.** -/
def separated (item : Reader ε α) (sep? : List Char → Option (List Char)) : Reader ε (List α) :=
  fun cs => separatedIn item sep? (cs.length + 1) cs

/-- A reader that gives no character back. -/
def Shrinks (item : Reader ε α) : Prop :=
  ∀ ⦃cs a r⦄, item cs = .ok (a, r) → r.length ≤ cs.length

/-- A separator takes at least one character. -/
def Consumes (sep? : List Char → Option (List Char)) : Prop :=
  ∀ ⦃cs r⦄, sep? cs = some r → r.length < cs.length

/-! ## The steps do not show -/

theorem separatedIn_congr {item : Reader ε α} {sep? : List Char → Option (List Char)}
    (hi : Shrinks item) (hs : Consumes sep?) {n m : Nat} {cs : List Char}
    (hn : cs.length < n) (hm : cs.length < m) :
    separatedIn item sep? n cs = separatedIn item sep? m cs := by
  induction n generalizing m cs with
  | zero => omega
  | succ n ih =>
    cases m with
    | zero => omega
    | succ m =>
      simp only [separatedIn]
      cases h : item cs with
      | error e => rfl
      | ok p =>
        obtain ⟨a, r⟩ := p
        have hr := hi h
        cases h' : sep? r with
        | none => simp only [h']
        | some r' =>
          have hr' := hs h'
          simp only [h']
          rw [ih (show r'.length < n by omega) (show r'.length < m by omega)]

theorem separated_eq {item : Reader ε α} {sep? : List Char → Option (List Char)}
    (hi : Shrinks item) (hs : Consumes sep?) (cs : List Char) :
    separated item sep? cs =
      match item cs with
      | .error e => .error e
      | .ok (a, r) =>
        match sep? r with
        | none => .ok ([a], r)
        | some r' =>
          match separated item sep? r' with
          | .error e => .error e
          | .ok (as, r'') => .ok (a :: as, r'') := by
  rw [separated, separatedIn]
  cases h : item cs with
  | error e => rfl
  | ok p =>
    obtain ⟨a, r⟩ := p
    have hr := hi h
    cases h' : sep? r with
    | none => simp only [h']
    | some r' =>
      have hr' := hs h'
      simp only [h', separated]
      rw [separatedIn_congr hi hs (by omega) (Nat.lt_succ_self r'.length)]

end ResourceQuery.Text
