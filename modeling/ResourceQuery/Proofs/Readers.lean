import ResourceQuery.Proofs.Refusal
import ResourceQuery.Text.Reader

/-! # What readers return

* `Yields`: every value that a reader returns has a property, and what is left is the end of the text.
  `yields_separated` carries this over to items with separators between them.
* `Blames`: whatever a reader refuses a text for has to do with that text (`blames_separated`).
* `Respects`: a reader reads the same in related texts, and leaves related texts (`Respects.separated`).
* `StopsBefore`: a reader reads the same with more text at the end, and leaves that. Items with separators
  between them are then read on from there, if a separator stands there (`separated_stopsBefore`).
* `separated_append_mapM`: a list that is written item by item, with a mark before every further one, is
  read item by item; `separated_append` is the case in which none of them is refused. -/

namespace ResourceQuery.Text

variable {ε α β : Type}

/-- **A reader returns values with a property**, and leaves an end of the text it was given. -/
def Yields (item : Reader ε α) (P : α → Prop) : Prop :=
  ∀ ⦃cs a r⦄, item cs = .ok (a, r) → P a ∧ r <:+ cs

/-- A separator takes something off the front of the text. -/
def Takes (sep? : List Char → Option (List Char)) : Prop :=
  ∀ ⦃cs r⦄, sep? cs = some r → ∃ c, c :: r <:+ cs

variable {item : Reader ε α} {sep? : List Char → Option (List Char)} {P : α → Prop}

theorem Yields.shrinks (h : Yields item P) : Shrinks item := fun _ _ _ hr => (h hr).2.length_le

theorem Takes.suffix (h : Takes sep?) {cs r : List Char} (hr : sep? cs = some r) : r <:+ cs := by
  obtain ⟨c, hc⟩ := h hr
  exact (List.suffix_cons c r).trans hc

theorem Takes.consumes (h : Takes sep?) : Consumes sep? := by
  intro cs r hr
  obtain ⟨c, hc⟩ := h hr
  have := hc.length_le
  rw [List.length_cons] at this
  omega

/-- **Items with separators between them have what each of them has**, and there is at least one. -/
theorem yields_separated (hi : Yields item P) (hs : Takes sep?) :
    Yields (separated item sep?) fun as => as ≠ [] ∧ ∀ a ∈ as, P a := by
  have steps : ∀ n, Yields (separatedIn item sep? n) fun as => (n ≠ 0 → as ≠ []) ∧ ∀ a ∈ as, P a := by
    intro n
    induction n with
    | zero =>
      intro cs as r h
      simp only [separatedIn, Except.ok.injEq, Prod.mk.injEq] at h
      obtain ⟨rfl, rfl⟩ := h
      simp
    | succ n ih =>
      intro cs as r h
      simp only [separatedIn] at h
      cases hc : item cs with
      | error e => simp [hc] at h
      | ok p =>
        obtain ⟨a, s⟩ := p
        obtain ⟨ha, hsuffix⟩ := hi hc
        simp only [hc] at h
        cases hsep : sep? s with
        | none =>
          simp only [hsep, Except.ok.injEq, Prod.mk.injEq] at h
          obtain ⟨rfl, rfl⟩ := h
          exact ⟨by simpa using ha, hsuffix⟩
        | some s' =>
          simp only [hsep] at h
          cases hrec : separatedIn item sep? n s' with
          | error e => simp [hrec] at h
          | ok q =>
            obtain ⟨bs, t⟩ := q
            simp only [hrec, Except.ok.injEq, Prod.mk.injEq] at h
            obtain ⟨rfl, rfl⟩ := h
            obtain ⟨⟨-, hbs⟩, ht⟩ := ih hrec
            refine ⟨⟨by simp, fun b hb => ?_⟩, ht.trans ((hs.suffix hsep).trans hsuffix)⟩
            rcases List.mem_cons.mp hb with rfl | hb
            · exact ha
            · exact hbs b hb
  intro cs as r h
  obtain ⟨⟨hne, has⟩, hsuffix⟩ := steps _ h
  exact ⟨⟨hne (by omega), has⟩, hsuffix⟩

/-- **A reader refuses a text for a reason** that stands in a relation to it. -/
def Blames (item : Reader ε α) (Q : List Char → ε → Prop) : Prop :=
  ∀ ⦃cs e⦄, item cs = .error e → Q cs e

/-- **Items with separators between them are refused for one of them**, somewhere in the text. -/
theorem blames_separated {Q : List Char → ε → Prop} (hi : Yields item P) (hs : Takes sep?)
    (hmono : ∀ ⦃cs r e⦄, r <:+ cs → Q r e → Q cs e) (hblames : Blames item Q) :
    Blames (separated item sep?) Q := by
  have steps : ∀ n, Blames (separatedIn item sep? n) Q := by
    intro n
    induction n with
    | zero =>
      intro cs e h
      simp [separatedIn] at h
    | succ n ih =>
      intro cs e h
      simp only [separatedIn] at h
      cases hc : item cs with
      | error e' =>
        simp only [hc, Except.error.injEq] at h
        exact h ▸ hblames hc
      | ok p =>
        obtain ⟨a, s⟩ := p
        simp only [hc] at h
        cases hsep : sep? s with
        | none => simp [hsep] at h
        | some s' =>
          simp only [hsep] at h
          cases hrec : separatedIn item sep? n s' with
          | ok q => simp [hrec] at h
          | error e' =>
            simp only [hrec, Except.error.injEq] at h
            exact hmono ((hs.suffix hsep).trans (hi hc).2) (h ▸ ih hrec)
  exact fun _ _ h => steps _ h

/-- **A reader respects a relation between texts**: what it reads in one text it reads in a related one, and it
leaves related texts. -/
def Respects (R : List Char → List Char → Prop) (item : Reader ε α) : Prop :=
  ∀ ⦃cs cs' a r⦄, R cs cs' → item cs = .ok (a, r) → ∃ r', item cs' = .ok (a, r') ∧ R r r'

/-- A separator is found in one of two related texts just if it is found in the other. -/
def Keeps (R : List Char → List Char → Prop) (sep? : List Char → Option (List Char)) : Prop :=
  ∀ ⦃cs cs'⦄, R cs cs' → Option.Rel R (sep? cs) (sep? cs')

section Respects

variable {R : List Char → List Char → Prop}

theorem Respects.ok (a : α) : Respects R fun cs => (.ok (a, cs) : Except ε (α × List Char)) := by
  intro cs cs' b r hR h
  obtain ⟨rfl, rfl⟩ := Refusal.ok_pair_inj h
  exact ⟨cs', rfl, hR⟩

theorem Respects.map (hitem : Respects R item) (f : α → β) :
    Respects R fun cs => (item cs).map fun p => (f p.1, p.2) := by
  intro cs cs' b r hR h
  obtain ⟨⟨a, s⟩, hread, heq⟩ := Refusal.map_eq_ok.mp h
  simp only [Prod.mk.injEq] at heq
  obtain ⟨rfl, rfl⟩ := heq
  obtain ⟨s', hread', hs⟩ := hitem hR hread
  exact ⟨s', Refusal.map_eq_ok.mpr ⟨_, hread', rfl⟩, hs⟩

/-- **A reader goes on where the one before it stopped.** -/
theorem Respects.bind {next : α × List Char → Except ε (β × List Char)}
    (hitem : Respects R item) (hnext : ∀ a, Respects R fun cs => next (a, cs)) :
    Respects R fun cs => item cs >>= next := by
  intro cs cs' b r hR h
  obtain ⟨⟨a, s⟩, hread, hrest⟩ := Refusal.bind_eq_ok.mp h
  obtain ⟨s', hread', hs⟩ := hitem hR hread
  obtain ⟨r', hrest', hr⟩ := hnext a hs hrest
  exact ⟨r', Refusal.bind_eq_ok.mpr ⟨_, hread', hrest'⟩, hr⟩

theorem Keeps.cases (hsep : Keeps R sep?) {cs cs' : List Char} (hR : R cs cs') :
    (sep? cs = none ∧ sep? cs' = none) ∨ ∃ r r', sep? cs = some r ∧ sep? cs' = some r' ∧ R r r' := by
  have h := hsep hR
  revert h
  generalize sep? cs = x
  generalize sep? cs' = y
  rintro (h | -)
  · exact .inr ⟨_, _, rfl, rfl, h⟩
  · exact .inl ⟨rfl, rfl⟩

theorem Respects.option {without withMark : Reader ε α} (hsep : Keeps R sep?)
    (hwithout : Respects R without) (hwith : Respects R withMark) : Respects R fun cs =>
      match sep? cs with
      | none => without cs
      | some r => withMark r := by
  intro cs cs' a r hR h
  obtain ⟨hs, hs'⟩ | ⟨s, s', hs, hs', hR'⟩ := hsep.cases hR
  · simp only [hs] at h
    simp only [hs']
    exact hwithout hR h
  · simp only [hs] at h
    simp only [hs']
    exact hwith hR' h

/-- **Items with separators between them are read alike in related texts.** -/
theorem Respects.separated (hi : Shrinks item) (hs : Consumes sep?) (hitem : Respects R item)
    (hsep : Keeps R sep?) : Respects R (separated item sep?) := by
  intro cs cs' as r hR h
  induction hn : cs.length using Nat.strongRecOn generalizing cs cs' as with
  | _ n ih =>
    rw [separated_eq hi hs] at h
    rw [separated_eq hi hs cs']
    cases hc : item cs with
    | error e => simp [hc] at h
    | ok p =>
      obtain ⟨a, s⟩ := p
      obtain ⟨s', hc', hR'⟩ := hitem hR hc
      simp only [hc] at h
      simp only [hc']
      obtain ⟨hend, hend'⟩ | ⟨t, t', hmore, hmore', hR''⟩ := hsep.cases hR'
      · simp only [hend] at h
        simp only [hend']
        obtain ⟨rfl, rfl⟩ := Refusal.ok_pair_inj h
        exact ⟨s', rfl, hR'⟩
      · have hlength := hi hc
        have hlength' := hs hmore
        simp only [hmore] at h
        simp only [hmore']
        cases hrec : Text.separated item sep? t with
        | error e => simp [hrec] at h
        | ok q =>
          obtain ⟨bs, u⟩ := q
          simp only [hrec] at h
          obtain ⟨rfl, rfl⟩ := Refusal.ok_pair_inj h
          obtain ⟨u', hrec', hu⟩ := ih t.length (by omega) hR'' hrec rfl
          exact ⟨u', by simp only [hrec'], hu⟩

end Respects

/-- **A reader stops before `x`**: with `x` after a text it reads the same, and leaves `x` too. -/
def StopsBefore (x : List Char) (item : Reader ε α) : Prop :=
  ∀ ⦃cs a r⦄, item cs = .ok (a, r) → item (cs ++ x) = .ok (a, r ++ x)

/-- To stop before `x` is to respect that it stands after a text. -/
theorem stopsBefore_iff {x : List Char} :
    StopsBefore x item ↔ Respects (fun cs cs' => cs' = cs ++ x) item := by
  constructor
  · rintro h cs cs' a r rfl hread
    exact ⟨_, h hread, rfl⟩
  · intro h cs a r hread
    obtain ⟨r', hread', rfl⟩ := h rfl hread
    exact hread'

theorem StopsBefore.ok {x : List Char} (a : α) :
    StopsBefore x fun cs => (.ok (a, cs) : Except ε (α × List Char)) :=
  stopsBefore_iff.mpr (.ok a)

theorem StopsBefore.map {x : List Char} (hitem : StopsBefore x item) (f : α → β) :
    StopsBefore x fun cs => (item cs).map fun p => (f p.1, p.2) :=
  stopsBefore_iff.mpr ((stopsBefore_iff.mp hitem).map f)

theorem StopsBefore.bind {x : List Char} {next : α × List Char → Except ε (β × List Char)}
    (hitem : StopsBefore x item) (hnext : ∀ a, StopsBefore x fun cs => next (a, cs)) :
    StopsBefore x fun cs => item cs >>= next :=
  stopsBefore_iff.mpr ((stopsBefore_iff.mp hitem).bind fun a => stopsBefore_iff.mp (hnext a))

theorem StopsBefore.option {x : List Char} {without withMark : Reader ε α}
    (hsep : ∀ cs, sep? (cs ++ x) = (sep? cs).map (· ++ x)) (hwithout : StopsBefore x without)
    (hwith : StopsBefore x withMark) : StopsBefore x fun cs =>
      match sep? cs with
      | none => without cs
      | some r => withMark r := by
  refine stopsBefore_iff.mpr (.option ?_ (stopsBefore_iff.mp hwithout) (stopsBefore_iff.mp hwith))
  rintro cs cs' rfl
  rw [hsep]
  cases sep? cs with
  | none => exact .none
  | some r => exact .some rfl

/-- **Items with separators between them are read up to `x`**, and on from there after a separator. What they
leave does not start with one. -/
theorem separated_stopsBefore {x : List Char} (hi : Shrinks item) (hs : Consumes sep?)
    (hitem : StopsBefore x item) (hsep : ∀ ⦃cs r⦄, sep? cs = some r → sep? (cs ++ x) = some (r ++ x))
    {cs r : List Char} {as : List α} (h : separated item sep? cs = .ok (as, r)) :
    sep? r = none ∧ separated item sep? (cs ++ x) =
      match sep? (r ++ x) with
      | none => .ok (as, r ++ x)
      | some t => (separated item sep? t).map fun p => (as ++ p.1, p.2) := by
  induction hn : cs.length using Nat.strongRecOn generalizing cs as with
  | _ n ih =>
    rw [separated_eq hi hs] at h
    rw [separated_eq hi hs (cs ++ x)]
    cases hc : item cs with
    | error e => simp [hc] at h
    | ok p =>
      obtain ⟨a, s⟩ := p
      simp only [hc] at h
      simp only [hitem hc]
      cases hs' : sep? s with
      | none =>
        simp only [hs'] at h
        obtain ⟨rfl, rfl⟩ := Refusal.ok_pair_inj h
        refine ⟨hs', ?_⟩
        cases sep? (s ++ x) with
        | none => rfl
        | some t =>
          dsimp only
          cases separated item sep? t <;> rfl
      | some s' =>
        have hlength := hi hc
        have hlength' := hs hs'
        simp only [hs'] at h
        cases hrec : separated item sep? s' with
        | error e => simp [hrec] at h
        | ok q =>
          obtain ⟨bs, t⟩ := q
          simp only [hrec] at h
          obtain ⟨rfl, rfl⟩ := Refusal.ok_pair_inj h
          obtain ⟨hend, happend⟩ := ih s'.length (by omega) hrec rfl
          refine ⟨hend, ?_⟩
          simp only [hsep hs', happend]
          cases sep? (t ++ x) with
          | none => rfl
          | some u =>
            dsimp only
            cases separated item sep? u <;> rfl

/-- **A list that is written with a mark before every further item** is read item by item, up to the first
that is refused. `Follows` says what may follow an item, so that it ends there. -/
theorem separated_append_mapM (Follows : List Char → Prop) (value : β → Except ε α)
    (hi : Shrinks item) (hs : Consumes sep?) {write : β → List Char} {mark : List Char}
    (hmark : ∀ rest, Follows (mark ++ rest)) {b : β} {bs : List β}
    (hsep : ∀ c ∈ bs, ∀ rest, sep? (mark ++ (write c ++ rest)) = some (write c ++ rest))
    (hread : ∀ c ∈ b :: bs, ∀ rest, Follows rest →
      item (write c ++ rest) = (value c).map fun a => (a, rest))
    {rest : List Char} (hrest : Follows rest) (hend : sep? rest = none) :
    separated item sep? (write b ++ (bs.flatMap (fun c => mark ++ write c) ++ rest)) =
      ((b :: bs).mapM value).map fun as => (as, rest) := by
  induction bs generalizing b with
  | nil =>
    rw [separated_eq hi hs, List.flatMap_nil, List.nil_append, hread b (by simp) rest hrest,
      List.mapM_cons]
    cases value b with
    | error e => rfl
    | ok a =>
      simp only [Except.map, hend]
      rfl
  | cons c bs ih =>
    have htail : (c :: bs).flatMap (fun c => mark ++ write c) ++ rest =
        mark ++ (write c ++ (bs.flatMap (fun c => mark ++ write c) ++ rest)) := by
      simp [List.append_assoc]
    have ih := ih (fun d hd => hsep d (List.mem_cons_of_mem c hd))
      fun d hd => hread d (List.mem_cons_of_mem b hd)
    rw [separated_eq hi hs, htail, hread b (by simp) _ (hmark _), List.mapM_cons]
    cases value b with
    | error e => rfl
    | ok a =>
      simp only [Except.map]
      rw [hsep c (by simp)]
      simp only [ih]
      cases (c :: bs).mapM value <;> rfl

/-- **What is written with a mark before every further item is read back**, if no item is refused. -/
theorem separated_append (Follows : List Char → Prop) (value : β → α) (hi : Shrinks item)
    (hs : Consumes sep?) {write : β → List Char} {mark : List Char}
    (hmark : ∀ rest, Follows (mark ++ rest)) {b : β} {bs : List β}
    (hsep : ∀ c ∈ bs, ∀ rest, sep? (mark ++ (write c ++ rest)) = some (write c ++ rest))
    (hread : ∀ c ∈ b :: bs, ∀ rest, Follows rest → item (write c ++ rest) = .ok (value c, rest))
    {rest : List Char} (hrest : Follows rest) (hend : sep? rest = none) :
    separated item sep? (write b ++ (bs.flatMap (fun c => mark ++ write c) ++ rest)) =
      .ok ((b :: bs).map value, rest) := by
  have hmapM : (b :: bs).mapM (fun c => (.ok (value c) : Except ε α)) = .ok ((b :: bs).map value) :=
    List.mapM_pure
  rw [separated_append_mapM Follows (fun c => .ok (value c)) hi hs hmark hsep hread hrest hend, hmapM]
  rfl

end ResourceQuery.Text
