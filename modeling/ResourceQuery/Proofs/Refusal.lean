/-! # Computations that may be refused

What it says that a chain of computations in `Except` ends well: every link did, one after the other. And if
it does not, one of them is to blame.

* `bind_eq_ok`, `map_eq_ok`, `mapError_eq_ok`: the links of a chain; `bind_eq_error` the broken one.
* `mapM_cons_eq_ok`, `mapM_append_eq_ok`, `foldlM_cons_eq_ok`: the same along a list.
* `foldlM_invariant`: what every step of a fold keeps.
* `exists_foldlM_iff`: a fold that accepts or refuses each element by itself.
* `foldlM_eq_filter`: a fold over the elements that matter to it.
* `foldlM_map_eq`: a fold whose step reads its element alone is a reading of all of them, then a fold.
* `Alike`: two computations that are accepted together, or refused together. -/

namespace ResourceQuery.Refusal

variable {ε ε' α β γ : Type}

theorem bind_eq_ok {x : Except ε α} {f : α → Except ε β} {b : β} :
    (x >>= f) = .ok b ↔ ∃ a, x = .ok a ∧ f a = .ok b := by
  cases x with
  | error e => simp [bind, Except.bind]
  | ok a => simp [bind, Except.bind]

theorem map_eq_ok {x : Except ε α} {f : α → β} {b : β} :
    x.map f = .ok b ↔ ∃ a, x = .ok a ∧ f a = b := by
  cases x with
  | error e => simp [Except.map]
  | ok a => simp [Except.map]

theorem ok_pair_inj {a b : α} {r s : β} (h : (.ok (a, r) : Except ε (α × β)) = .ok (b, s)) :
    a = b ∧ r = s := by
  simpa using h

theorem mapError_eq_ok {x : Except ε α} {f : ε → ε'} {a : α} :
    x.mapError f = .ok a ↔ x = .ok a := by
  cases x with
  | error e => exact ⟨nofun, nofun⟩
  | ok b =>
    constructor
    · intro h
      exact congrArg Except.ok (Except.ok.inj h)
    · intro h
      exact congrArg Except.ok (Except.ok.inj h)

theorem map_bind (x : Except ε α) (f : α → Except ε β) (g : β → γ) :
    (x >>= f).map g = x >>= fun a => (f a).map g := by
  cases x <;> rfl

theorem bind_eq_error {x : Except ε α} {f : α → Except ε β} {e : ε} :
    (x >>= f) = .error e ↔ x = .error e ∨ ∃ a, x = .ok a ∧ f a = .error e := by
  cases x with
  | error e' => simp [bind, Except.bind]
  | ok a => simp [bind, Except.bind]

theorem map_eq_error {x : Except ε α} {f : α → β} {e : ε} : x.map f = .error e ↔ x = .error e := by
  cases x with
  | error e' => simp [Except.map]
  | ok a => simp [Except.map]

theorem mapError_eq_error {x : Except ε α} {f : ε → ε'} {e' : ε'} :
    x.mapError f = .error e' ↔ ∃ e, x = .error e ∧ f e = e' := by
  cases x with
  | error e =>
    show Except.error (f e) = .error e' ↔ _
    simp
  | ok a => exact ⟨nofun, nofun⟩

theorem mapError_map (x : Except ε α) (f : α → β) (g : ε → ε') :
    (x.map f).mapError g = (x.mapError g).map f := by
  cases x <;> rfl

theorem bind_map (x : Except ε α) (f : α → β) (g : β → Except ε γ) :
    (x.map f >>= g) = x >>= fun a => g (f a) := by
  cases x <;> rfl

theorem mapM_cons_eq_ok {f : α → Except ε β} {a : α} {as : List α} {bs : List β} :
    (a :: as).mapM f = .ok bs ↔ ∃ b bs', f a = .ok b ∧ as.mapM f = .ok bs' ∧ bs = b :: bs' := by
  rw [List.mapM_cons, bind_eq_ok]
  constructor
  · rintro ⟨b, hb, h⟩
    obtain ⟨bs', hbs, h⟩ := bind_eq_ok.mp h
    exact ⟨b, bs', hb, hbs, (Except.ok.inj h).symm⟩
  · rintro ⟨b, bs', hb, hbs, rfl⟩
    exact ⟨b, hb, bind_eq_ok.mpr ⟨bs', hbs, rfl⟩⟩

theorem mapM_append_eq_ok {f : α → Except ε β} {as bs : List α} {cs : List β} :
    (as ++ bs).mapM f = .ok cs ↔
      ∃ xs ys, as.mapM f = .ok xs ∧ bs.mapM f = .ok ys ∧ cs = xs ++ ys := by
  rw [List.mapM_append, bind_eq_ok]
  constructor
  · rintro ⟨xs, hxs, h⟩
    obtain ⟨ys, hys, h⟩ := bind_eq_ok.mp h
    exact ⟨xs, ys, hxs, hys, (Except.ok.inj h).symm⟩
  · rintro ⟨xs, ys, hxs, hys, rfl⟩
    exact ⟨xs, hxs, bind_eq_ok.mpr ⟨ys, hys, rfl⟩⟩

theorem mapM_perm {f : α → Except ε β} {as bs : List α} (h : as.Perm bs) {cs : List β}
    (hcs : as.mapM f = .ok cs) : ∃ ds, bs.mapM f = .ok ds ∧ cs.Perm ds := by
  induction h generalizing cs with
  | nil => exact ⟨cs, hcs, .refl _⟩
  | cons a _ ih =>
    obtain ⟨c, cs', hc, hcs', rfl⟩ := mapM_cons_eq_ok.mp hcs
    obtain ⟨ds, hds, hperm⟩ := ih hcs'
    exact ⟨c :: ds, mapM_cons_eq_ok.mpr ⟨c, ds, hc, hds, rfl⟩, hperm.cons c⟩
  | swap a b =>
    obtain ⟨c, cs', hc, hcs', rfl⟩ := mapM_cons_eq_ok.mp hcs
    obtain ⟨d, cs'', hd, hcs'', rfl⟩ := mapM_cons_eq_ok.mp hcs'
    exact ⟨d :: c :: cs'', mapM_cons_eq_ok.mpr ⟨d, _, hd, mapM_cons_eq_ok.mpr ⟨c, _, hc, hcs'', rfl⟩, rfl⟩,
      .swap d c cs''⟩
  | trans _ _ ih ih' =>
    obtain ⟨ds, hds, hperm⟩ := ih hcs
    obtain ⟨ds', hds', hperm'⟩ := ih' hds
    exact ⟨ds', hds', hperm.trans hperm'⟩

theorem exists_of_mapM {f : α → Except ε β} {as : List α} {bs : List β} (h : as.mapM f = .ok bs) {a : α}
    (ha : a ∈ as) : ∃ b ∈ bs, f a = .ok b := by
  induction as generalizing bs with
  | nil => simp at ha
  | cons a' as ih =>
    obtain ⟨b, bs', hb, hbs, rfl⟩ := mapM_cons_eq_ok.mp h
    rcases List.mem_cons.mp ha with rfl | ha
    · exact ⟨b, List.mem_cons_self, hb⟩
    · obtain ⟨b', hmem, hb'⟩ := ih hbs ha
      exact ⟨b', List.mem_cons_of_mem b hmem, hb'⟩

theorem mem_of_mapM {f : α → Except ε β} {as : List α} {bs : List β} (h : as.mapM f = .ok bs) {b : β}
    (hb : b ∈ bs) : ∃ a ∈ as, f a = .ok b := by
  induction as generalizing bs with
  | nil =>
    obtain rfl : [] = bs := Except.ok.inj h
    simp at hb
  | cons a as ih =>
    obtain ⟨b', bs', hb', hbs, rfl⟩ := mapM_cons_eq_ok.mp h
    rcases List.mem_cons.mp hb with rfl | hb
    · exact ⟨a, List.mem_cons_self, hb'⟩
    · obtain ⟨a', hmem, ha'⟩ := ih hbs hb
      exact ⟨a', List.mem_cons_of_mem a hmem, ha'⟩

theorem exists_mapM_iff {f : α → Except ε β} {as : List α} :
    (∃ bs, as.mapM f = .ok bs) ↔ ∀ a ∈ as, ∃ b, f a = .ok b := by
  constructor
  · rintro ⟨bs, h⟩ a ha
    obtain ⟨b, -, hb⟩ := exists_of_mapM h ha
    exact ⟨b, hb⟩
  · intro h
    induction as with
    | nil => exact ⟨[], rfl⟩
    | cons a as ih =>
      obtain ⟨b, hb⟩ := h a List.mem_cons_self
      obtain ⟨bs, hbs⟩ := ih fun a' ha' => h a' (List.mem_cons_of_mem a ha')
      exact ⟨b :: bs, mapM_cons_eq_ok.mpr ⟨b, bs, hb, hbs, rfl⟩⟩

theorem exists_of_mapM_eq_error {f : α → Except ε β} {as : List α} {e : ε} (h : as.mapM f = .error e) :
    ∃ a ∈ as, f a = .error e := by
  induction as with
  | nil => simp [pure, Except.pure] at h
  | cons a as ih =>
    rw [List.mapM_cons] at h
    rcases bind_eq_error.mp h with h | ⟨b, -, h⟩
    · exact ⟨a, List.mem_cons_self, h⟩
    · rcases bind_eq_error.mp h with h | ⟨bs, -, h⟩
      · obtain ⟨a', ha', hf⟩ := ih h
        exact ⟨a', List.mem_cons_of_mem a ha', hf⟩
      · exact absurd h (by simp [pure, Except.pure])

theorem foldlM_cons_eq_ok {f : β → α → Except ε β} {b c : β} {a : α} {as : List α} :
    (a :: as).foldlM f b = .ok c ↔ ∃ b', f b a = .ok b' ∧ as.foldlM f b' = .ok c := by
  rw [List.foldlM_cons, bind_eq_ok]

theorem exists_of_foldlM_eq_error {f : β → α → Except ε β} {as : List α} {b : β} {e : ε}
    (h : as.foldlM f b = .error e) : ∃ a ∈ as, ∃ b', f b' a = .error e := by
  induction as generalizing b with
  | nil => simp [pure, Except.pure] at h
  | cons a as ih =>
    rw [List.foldlM_cons] at h
    rcases bind_eq_error.mp h with h | ⟨b', -, h⟩
    · exact ⟨a, List.mem_cons_self, b, h⟩
    · obtain ⟨a', ha', hf⟩ := ih h
      exact ⟨a', List.mem_cons_of_mem a ha', hf⟩

theorem foldlM_invariant {P : β → Prop} {f : β → α → Except ε β} {as : List α} {b c : β}
    (hstep : ∀ b a b', P b → f b a = .ok b' → P b') (hb : P b) (h : as.foldlM f b = .ok c) : P c := by
  induction as generalizing b with
  | nil =>
    obtain rfl : b = c := Except.ok.inj h
    exact hb
  | cons a as ih =>
    obtain ⟨b', hb', h⟩ := foldlM_cons_eq_ok.mp h
    exact ih (hstep b a b' hb hb') h

/-- **A fold ends well if and only if every element is accepted**, where that does not depend on what
came before. -/
theorem exists_foldlM_iff {P : α → Prop} {f : β → α → Except ε β} {as : List α} (b : β)
    (hstep : ∀ b, ∀ a ∈ as, (∃ b', f b a = .ok b') ↔ P a) :
    (∃ c, as.foldlM f b = .ok c) ↔ ∀ a ∈ as, P a := by
  induction as generalizing b with
  | nil => exact iff_of_true ⟨b, rfl⟩ nofun
  | cons a as ih =>
    have ih := fun b => ih b fun b a' ha' => hstep b a' (List.mem_cons_of_mem a ha')
    simp only [foldlM_cons_eq_ok, List.forall_mem_cons, ← hstep b a List.mem_cons_self]
    constructor
    · rintro ⟨c, b', hb', h⟩
      exact ⟨⟨b', hb'⟩, (ih b').mp ⟨c, h⟩⟩
    · rintro ⟨⟨b', hb'⟩, h⟩
      obtain ⟨c, hc⟩ := (ih b').mpr h
      exact ⟨c, b', hb', hc⟩

/-- **A fold is refused at the first element that is not accepted**, and for the reason that this element
gives. -/
theorem foldlM_eq_error_iff {P : α → Prop} {f : β → α → Except ε β} {as : List α}
    (reason : α → ε) (b : β) (hstep : ∀ b, ∀ a ∈ as, (∃ b', f b a = .ok b') ↔ P a)
    (hreason : ∀ b, ∀ a ∈ as, ∀ e, f b a = .error e → e = reason a) (e : ε) :
    as.foldlM f b = .error e ↔ ∃ before a after, as = before ++ a :: after ∧ (∀ d ∈ before, P d) ∧
      ¬P a ∧ e = reason a := by
  induction as generalizing b with
  | nil =>
    refine iff_of_false (by simp [pure, Except.pure]) ?_
    rintro ⟨before, a, after, h, -⟩
    simp at h
  | cons a as ih =>
    have ih := fun b => ih b (fun b a' ha' => hstep b a' (List.mem_cons_of_mem a ha'))
      fun b a' ha' => hreason b a' (List.mem_cons_of_mem a ha')
    rw [List.foldlM_cons]
    cases hf : f b a with
    | error e' =>
      have hnot : ¬P a := fun hP => by
        obtain ⟨b', hb'⟩ := (hstep b a List.mem_cons_self).mpr hP
        simp [hf] at hb'
      have he' : e' = reason a := hreason b a List.mem_cons_self e' hf
      constructor
      · intro h
        obtain rfl : e' = e := Except.error.inj h
        exact ⟨[], a, as, rfl, nofun, hnot, he'⟩
      · rintro ⟨before, a', after, h, hbefore, -, rfl⟩
        cases before with
        | nil =>
          obtain ⟨rfl, -⟩ := List.cons.inj h
          exact congrArg Except.error he'
        | cons d before =>
          obtain ⟨rfl, -⟩ := List.cons.inj h
          exact absurd (hbefore a List.mem_cons_self) hnot
    | ok b' =>
      have hP : P a := (hstep b a List.mem_cons_self).mp ⟨b', hf⟩
      refine (ih b').trans ?_
      constructor
      · rintro ⟨before, a', after, rfl, hbefore, h⟩
        exact ⟨a :: before, a', after, rfl, List.forall_mem_cons.mpr ⟨hP, hbefore⟩, h⟩
      · rintro ⟨before, a', after, h, hbefore, hnot, he⟩
        cases before with
        | nil =>
          obtain ⟨rfl, -⟩ := List.cons.inj h
          exact absurd hP hnot
        | cons d before =>
          obtain ⟨rfl, rfl⟩ := List.cons.inj h
          exact ⟨before, a', after, rfl, (List.forall_mem_cons.mp hbefore).2, hnot, he⟩

theorem foldlM_eq_filter {f g : β → α → Except ε β} (keep : α → Bool) {as : List α} (b : β)
    (hkeep : ∀ b, ∀ a ∈ as, keep a → f b a = g b a)
    (hskip : ∀ b, ∀ a ∈ as, keep a = false → f b a = .ok b) :
    as.foldlM f b = (as.filter keep).foldlM g b := by
  induction as generalizing b with
  | nil => rfl
  | cons a as ih =>
    have ih := fun c => ih c (fun b a' ha' => hkeep b a' (List.mem_cons_of_mem a ha'))
      fun b a' ha' => hskip b a' (List.mem_cons_of_mem a ha')
    rw [List.foldlM_cons, List.filter_cons]
    cases ha : keep a with
    | true =>
      rw [hkeep b a List.mem_cons_self ha, if_pos rfl, List.foldlM_cons]
      exact congrArg _ (funext ih)
    | false =>
      rw [hskip b a List.mem_cons_self ha, if_neg Bool.false_ne_true]
      exact ih b

/-- **Reading first, folding later.** The first refusal is the same. -/
theorem foldlM_map_eq (r : α → Except ε γ) (g : β → γ → β) (b : β) (as : List α) :
    as.foldlM (fun b a => (r a).map (g b)) b = (as.mapM r).map fun cs => cs.foldl g b := by
  induction as generalizing b with
  | nil => rfl
  | cons a as ih =>
    rw [List.foldlM_cons, List.mapM_cons]
    cases hr : r a with
    | error e => rfl
    | ok c =>
      have := ih (g b c)
      cases hm : as.mapM r with
      | error e => rw [hm] at this; exact this
      | ok cs => rw [hm] at this; exact this

/-! ## Alike outcomes -/

variable {ζ ζ' α' β' : Type}

/-- **Two computations come out alike**: both accepted with results that are related, or both refused for
reasons that are. -/
inductive Alike (R : α → β → Prop) (S : ε → ε' → Prop) : Except ε α → Except ε' β → Prop where
  | ok {a : α} {b : β} (h : R a b) : Alike R S (.ok a) (.ok b)
  | error {e : ε} {e' : ε'} (h : S e e') : Alike R S (.error e) (.error e')

variable {R : α → β → Prop} {S : ε → ε' → Prop}

theorem Alike.of_eq {x y : Except ε α} (h : x = y) {S : ε → ε → Prop} (hS : ∀ e, S e e) :
    Alike Eq S x y := by
  subst h
  cases x with
  | ok a => exact .ok rfl
  | error e => exact .error (hS e)

theorem Alike.mapError {x : Except ε α} {y : Except ε' β} (h : Alike R S x y) {T : ζ → ζ' → Prop}
    {f : ε → ζ} {g : ε' → ζ'} (hfg : ∀ e e', S e e' → T (f e) (g e')) :
    Alike R T (x.mapError f) (y.mapError g) := by
  cases h with
  | ok h => exact .ok h
  | error h => exact .error (hfg _ _ h)

theorem Alike.bind {x : Except ε α} {y : Except ε' β} (h : Alike R S x y) {R' : α' → β' → Prop}
    {f : α → Except ε α'} {g : β → Except ε' β'} (hfg : ∀ a b, R a b → Alike R' S (f a) (g b)) :
    Alike R' S (x >>= f) (y >>= g) := by
  cases h with
  | ok h => exact hfg _ _ h
  | error h => exact .error h

theorem Alike.of_exists_iff {x : Except ε α} {y : Except ε' β}
    (h : (∃ a, x = .ok a) ↔ ∃ b, y = .ok b) (hR : ∀ a b, x = .ok a → y = .ok b → R a b) :
    Alike R (fun _ _ => True) x y := by
  cases x with
  | ok a =>
    obtain ⟨b, rfl⟩ := h.mp ⟨a, rfl⟩
    exact .ok (hR a b rfl rfl)
  | error e =>
    cases y with
    | ok b => exact absurd (h.mpr ⟨b, rfl⟩) (by simp)
    | error e' => exact .error trivial

end ResourceQuery.Refusal
