/-! # Cutting text

The cuts that the request syntax is made of, each total on a list of characters.

* `splitOnce`: at the first separator, if there is one; `splitOnce_eq_some` pins it down.
* `splitOn`: at every separator, never an empty list of pieces; `joinWith_splitOn` and
  `splitOn_joinWith` say that `joinWith` is its inverse.
* `dropLead?`, `dropTail?`: without a given beginning or end.
* `after?`: what follows the first occurrence of a text; a character that the text does not have parts
  the search in two (`after?_append_cons`). -/

namespace ResourceQuery.Text

/-- The text before and after the first `sep`. -/
def splitOnce (sep : Char) : List Char → Option (List Char × List Char)
  | [] => none
  | c :: cs => if c = sep then some ([], cs) else (splitOnce sep cs).map fun p => (c :: p.1, p.2)

/-- The pieces between the separators. -/
def splitOn (sep : Char) : List Char → List (List Char)
  | [] => [[]]
  | c :: cs =>
    if c = sep then [] :: splitOn sep cs
    else match splitOn sep cs with
      | [] => [[c]]
      | p :: ps => (c :: p) :: ps

/-- The pieces with `sep` between them. -/
def joinWith (sep : List Char) : List (List Char) → List Char
  | [] => []
  | [p] => p
  | p :: ps => p ++ sep ++ joinWith sep ps

/-- The text after `lead`, if it starts so. -/
def dropLead? : List Char → List Char → Option (List Char)
  | [], cs => some cs
  | _ :: _, [] => none
  | l :: ls, c :: cs => if l = c then dropLead? ls cs else none

/-- The text before `tail`, if it ends so. -/
def dropTail? (tail cs : List Char) : Option (List Char) :=
  (dropLead? tail.reverse cs.reverse).map List.reverse

/-- The text after the first occurrence of `word`. -/
def after? (word : List Char) : List Char → Option (List Char)
  | [] => if word = [] then some [] else none
  | c :: cs =>
    match dropLead? word (c :: cs) with
    | some rest => some rest
    | none => after? word cs

/-- Whether `word` occurs. -/
def occurs (word cs : List Char) : Bool := (after? word cs).isSome

/-! ## The first separator -/

theorem splitOnce_append {sep : Char} {a b : List Char} (h : sep ∉ a) :
    splitOnce sep (a ++ sep :: b) = some (a, b) := by
  induction a with
  | nil => simp [splitOnce]
  | cons c a ih =>
    have hc : c ≠ sep := fun hc => h (by simp [hc])
    have ha : sep ∉ a := fun ha => h (by simp [ha])
    simp [splitOnce, hc, ih ha]

theorem splitOnce_eq_some {sep : Char} {cs a b : List Char} :
    splitOnce sep cs = some (a, b) ↔ cs = a ++ sep :: b ∧ sep ∉ a := by
  constructor
  · intro h
    induction cs generalizing a with
    | nil => simp [splitOnce] at h
    | cons c cs ih =>
      by_cases hc : c = sep
      · simp only [splitOnce, hc, if_true, Option.some.injEq, Prod.mk.injEq] at h
        obtain ⟨rfl, rfl⟩ := h
        simp [hc]
      · simp only [splitOnce, hc, if_false, Option.map_eq_some_iff] at h
        obtain ⟨⟨a', b'⟩, hs, he⟩ := h
        simp only [Prod.mk.injEq] at he
        obtain ⟨rfl, rfl⟩ := he
        obtain ⟨rfl, hn⟩ := ih hs
        simp [hn, Ne.symm hc]
  · rintro ⟨rfl, h⟩
    exact splitOnce_append h

/-! ## All separators -/

theorem splitOn_ne_nil (sep : Char) (cs : List Char) : splitOn sep cs ≠ [] := by
  cases cs with
  | nil => simp [splitOn]
  | cons c cs =>
    simp only [splitOn]
    split
    · simp
    · split <;> simp

theorem splitOn_of_not_mem {sep : Char} {cs : List Char} (h : sep ∉ cs) :
    splitOn sep cs = [cs] := by
  induction cs with
  | nil => rfl
  | cons c cs ih =>
    have hc : c ≠ sep := fun hc => h (by simp [hc])
    simp [splitOn, hc, ih fun ha => h (by simp [ha])]

theorem splitOn_cons_of_ne {sep c : Char} (hc : c ≠ sep) (cs : List Char) :
    ∃ p ps, splitOn sep cs = p :: ps ∧ splitOn sep (c :: cs) = (c :: p) :: ps := by
  cases h : splitOn sep cs with
  | nil => exact absurd h (splitOn_ne_nil sep cs)
  | cons p ps => exact ⟨p, ps, rfl, by simp [splitOn, hc, h]⟩

theorem splitOn_append_cons (sep : Char) (a b : List Char) :
    splitOn sep (a ++ sep :: b) = splitOn sep a ++ splitOn sep b := by
  induction a with
  | nil => simp [splitOn]
  | cons c a ih =>
    by_cases hc : c = sep
    · simp [splitOn, hc, ih]
    · obtain ⟨p, ps, ha, hca⟩ := splitOn_cons_of_ne hc a
      rw [hca, List.cons_append, splitOn, if_neg hc, ih, ha]
      rfl

theorem splitOn_append {sep : Char} {a b : List Char} (h : sep ∉ a) :
    splitOn sep (a ++ sep :: b) = a :: splitOn sep b := by
  rw [splitOn_append_cons, splitOn_of_not_mem h, List.singleton_append]

theorem splitOn_append_of_not_mem {sep : Char} {a b : List Char} (h : sep ∉ a) :
    ∃ p ps, splitOn sep b = p :: ps ∧ splitOn sep (a ++ b) = (a ++ p) :: ps := by
  induction a with
  | nil =>
    obtain ⟨p, ps, hb⟩ := List.exists_cons_of_ne_nil (splitOn_ne_nil sep b)
    exact ⟨p, ps, hb, hb⟩
  | cons c a ih =>
    have hc : c ≠ sep := fun hc => h (by simp [hc])
    obtain ⟨p, ps, hb, hab⟩ := ih fun ha => h (by simp [ha])
    exact ⟨p, ps, hb, by rw [List.cons_append, splitOn, if_neg hc, hab, List.cons_append]⟩

theorem not_mem_of_mem_splitOn {sep : Char} {cs p : List Char} (h : p ∈ splitOn sep cs) :
    sep ∉ p := by
  induction cs generalizing p with
  | nil =>
    rw [splitOn, List.mem_singleton] at h
    simp [h]
  | cons c cs ih =>
    by_cases hc : c = sep
    · rw [splitOn, if_pos hc, List.mem_cons] at h
      rcases h with rfl | h
      · simp
      · exact ih h
    · obtain ⟨q, qs, hq, hcq⟩ := splitOn_cons_of_ne hc cs
      rw [hcq, List.mem_cons] at h
      rcases h with rfl | h
      · have hn : sep ∉ q := ih (by rw [hq]; exact List.mem_cons_self)
        simp [hn, Ne.symm hc]
      · exact ih (by rw [hq]; exact List.mem_cons_of_mem q h)

theorem joinWith_cons_of_ne_nil (sep p : List Char) {ps : List (List Char)} (h : ps ≠ []) :
    joinWith sep (p :: ps) = p ++ sep ++ joinWith sep ps := by
  cases ps with
  | nil => exact absurd rfl h
  | cons q qs => rfl

theorem toList_intercalate (sep : String) (ps : List String) :
    (String.intercalate sep ps).toList = joinWith sep.toList (ps.map String.toList) := by
  induction ps with
  | nil => rfl
  | cons p ps ih =>
    cases ps with
    | nil => simp [joinWith]
    | cons q qs =>
      rw [String.intercalate_cons_cons, String.toList_append, String.toList_append, ih]
      rfl

theorem mem_joinWith {sep : List Char} {ps : List (List Char)} {c : Char}
    (h : c ∈ joinWith sep ps) : c ∈ sep ∨ ∃ p ∈ ps, c ∈ p := by
  induction ps with
  | nil => simp [joinWith] at h
  | cons p ps ih =>
    cases ps with
    | nil => exact Or.inr ⟨p, by simp, h⟩
    | cons q qs =>
      rw [joinWith_cons_of_ne_nil _ _ (List.cons_ne_nil q qs), List.mem_append,
        List.mem_append] at h
      rcases h with (h | h) | h
      · exact Or.inr ⟨p, by simp, h⟩
      · exact Or.inl h
      · obtain hsep | ⟨p', hp', hc⟩ := ih h
        · exact Or.inl hsep
        · exact Or.inr ⟨p', List.mem_cons_of_mem p hp', hc⟩

theorem mem_joinWith_of_mem {sep : List Char} {ps : List (List Char)} {p : List Char} {c : Char}
    (hp : p ∈ ps) (hc : c ∈ p) : c ∈ joinWith sep ps := by
  induction ps with
  | nil => simp at hp
  | cons q qs ih =>
    cases qs with
    | nil =>
      obtain rfl := List.mem_singleton.mp hp
      exact hc
    | cons q' qs =>
      rw [joinWith_cons_of_ne_nil _ _ (List.cons_ne_nil q' qs), List.mem_append]
      rcases List.mem_cons.mp hp with rfl | hp
      · exact Or.inl (List.mem_append_left _ hc)
      · exact Or.inr (ih hp)

/-- **Nothing is lost in a cut.** -/
theorem joinWith_splitOn (sep : Char) (cs : List Char) : joinWith [sep] (splitOn sep cs) = cs := by
  induction cs with
  | nil => rfl
  | cons c cs ih =>
    by_cases hc : c = sep
    · rw [splitOn, if_pos hc, joinWith_cons_of_ne_nil _ _ (splitOn_ne_nil sep cs), ih, hc]
      rfl
    · obtain ⟨q, qs, hq, hcq⟩ := splitOn_cons_of_ne hc cs
      rw [hq] at ih
      rw [hcq]
      cases qs with
      | nil => exact congrArg (c :: ·) ih
      | cons r rs => exact congrArg (c :: ·) ih

/-- **Pieces without separators are read back.** -/
theorem splitOn_joinWith {sep : Char} {ps : List (List Char)} (hne : ps ≠ [])
    (h : ∀ p ∈ ps, sep ∉ p) : splitOn sep (joinWith [sep] ps) = ps := by
  induction ps with
  | nil => exact absurd rfl hne
  | cons p ps ih =>
    have hp : sep ∉ p := h p List.mem_cons_self
    cases ps with
    | nil => exact splitOn_of_not_mem hp
    | cons q qs =>
      have ih := ih (List.cons_ne_nil q qs) fun r hr => h r (List.mem_cons_of_mem p hr)
      rw [joinWith_cons_of_ne_nil _ _ (List.cons_ne_nil q qs), List.append_assoc,
        List.singleton_append, splitOn_append hp, ih]

theorem splitOn_joinWith_append {sep : Char} {ps : List (List Char)} (h : ∀ p ∈ ps, sep ∉ p)
    (last rest : List Char) :
    splitOn sep (joinWith [sep] (ps ++ [last]) ++ rest) = ps ++ splitOn sep (last ++ rest) := by
  induction ps with
  | nil => rfl
  | cons p ps ih =>
    rw [List.cons_append, joinWith_cons_of_ne_nil _ _ (by simp), List.append_assoc, List.append_assoc,
      List.singleton_append, splitOn_append (h p List.mem_cons_self),
      ih fun q hq => h q (List.mem_cons_of_mem p hq), List.cons_append]

/-! ## Beginnings and ends -/

theorem dropLead?_append (lead cs : List Char) : dropLead? lead (lead ++ cs) = some cs := by
  induction lead with
  | nil => cases cs <;> rfl
  | cons l ls ih => simp [dropLead?, ih]

theorem dropLead?_eq_some {lead cs rest : List Char} :
    dropLead? lead cs = some rest ↔ cs = lead ++ rest := by
  constructor
  · intro h
    induction lead generalizing cs with
    | nil => cases cs <;> simp_all [dropLead?]
    | cons l ls ih =>
      cases cs with
      | nil => simp [dropLead?] at h
      | cons c cs =>
        by_cases hl : l = c
        · subst hl
          simp only [dropLead?, if_true] at h
          simp [ih h]
        · simp [dropLead?, hl] at h
  · rintro rfl
    exact dropLead?_append lead rest

theorem dropTail?_eq_some {tail cs rest : List Char} :
    dropTail? tail cs = some rest ↔ cs = rest ++ tail := by
  simp only [dropTail?, Option.map_eq_some_iff, dropLead?_eq_some]
  constructor
  · rintro ⟨r, hr, rfl⟩
    have := congrArg List.reverse hr
    simpa using this
  · rintro rfl
    exact ⟨rest.reverse, by simp, by simp⟩

theorem dropLead?_append_cons {word : List Char} {c : Char} (hc : c ∉ word) (a b : List Char) :
    dropLead? word (a ++ c :: b) = (dropLead? word a).map (· ++ c :: b) := by
  induction word generalizing a with
  | nil => cases a <;> rfl
  | cons l ls ih =>
    have hl : l ≠ c := fun hl => hc (by simp [hl])
    cases a with
    | nil => simp [dropLead?, hl]
    | cons d a =>
      by_cases hd : l = d
      · simp [dropLead?, hd, ih fun h => hc (List.mem_cons_of_mem l h)]
      · simp [dropLead?, hd]

/-! ## The first occurrence -/

theorem after?_append (word rest : List Char) : after? word (word ++ rest) = some rest := by
  cases word with
  | nil => cases rest <;> rfl
  | cons l ls =>
    have h := dropLead?_append (l :: ls) rest
    rw [List.cons_append] at h
    rw [List.cons_append, after?, h]

/-- **A character that the word does not have parts the search**: the word is in front of it, or else it
is looked for behind it. -/
theorem after?_append_cons {word : List Char} {c : Char} (hc : c ∉ word) (a b : List Char) :
    after? word (a ++ c :: b) = ((after? word a).map (· ++ c :: b)).or (after? word b) := by
  induction a with
  | nil =>
    cases word with
    | nil => rfl
    | cons l ls =>
      have hl : l ≠ c := fun hl => hc (by simp [hl])
      simp [after?, dropLead?, hl]
  | cons d a ih =>
    have hlead := dropLead?_append_cons hc (d :: a) b
    rw [List.cons_append] at hlead
    rw [List.cons_append, after?, after?, hlead, ih]
    cases dropLead? word (d :: a) <;> rfl

theorem after?_append_of_forall {word a : List Char} (hne : word ≠ []) (h : ∀ c ∈ a, c ∉ word)
    (b : List Char) : after? word (a ++ b) = after? word b := by
  induction a with
  | nil => rfl
  | cons c a ih =>
    have hcons := after?_append_cons (h c List.mem_cons_self) [] (a ++ b)
    rw [List.nil_append] at hcons
    rw [List.cons_append, hcons, ih fun d hd => h d (List.mem_cons_of_mem c hd), after?, if_neg hne]
    rfl

theorem after?_eq_none {word cs : List Char} : after? word cs = none ↔ ¬ word <:+: cs := by
  induction cs with
  | nil => by_cases hword : word = [] <;> simp [after?, hword]
  | cons c cs ih =>
    have hlead : dropLead? word (c :: cs) = none ↔ ¬ word <+: c :: cs := by
      simp only [Option.eq_none_iff_forall_ne_some, Ne, dropLead?_eq_some, List.IsPrefix, not_exists,
        @eq_comm _ (c :: cs)]
    rw [after?, List.infix_cons_iff, not_or, ← hlead, ← ih]
    cases dropLead? word (c :: cs) <;> simp

theorem occurs_iff {word cs : List Char} : occurs word cs = true ↔ word <:+: cs := by
  rw [occurs, Option.isSome_iff_ne_none, Ne, after?_eq_none, Classical.not_not]

end ResourceQuery.Text
