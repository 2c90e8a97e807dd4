import ResourceQuery.Proofs.Filter.Stored

/-! # Inside a filter

A filter stands inside another one at any depth: in a group, or negated. Inside a filter that additions make
no place is filled twice, no column has an operator twice, and what holds of all operators that were added
holds there (`MadeOf.everywhere_tidy`). -/

namespace ResourceQuery

namespace Filter

/-- **A filter inside another one**, or the filter itself. -/
inductive Inside (g : Filter) : Filter → Prop where
  | self : Inside g g
  | group {f h : Filter} {logic : Logic} {gs : List Filter} (hc : .group logic gs ∈ f) (hh : h ∈ gs)
      (hg : Inside g h) : Inside g f
  | negation {f h : Filter} (hc : .negation h ∈ f) (hg : Inside g h) : Inside g f

/-- **What holds of a filter and of all filters inside it.** -/
def Everywhere (Q : Filter → Prop) (f : Filter) : Prop := ∀ g, Inside g f → Q g

end Filter

/-- What holds everywhere in the filters of a condition. -/
def Condition.Everywhere (Q : Filter → Prop) : Condition → Prop
  | .column _ _ => True
  | .group _ gs => ∀ g ∈ gs, Filter.Everywhere Q g
  | .negation g => Filter.Everywhere Q g

/-- A condition on a column with no operator twice, all of them with a property. -/
def Condition.Tidy (P : Operator → Operand → Prop) : Condition → Prop
  | .column _ ops => (Entries.keys ops).Nodup ∧ ∀ e ∈ ops, P e.1 e.2
  | _ => True

namespace Filter

variable {P : Operator → Operand → Prop} {Q : Filter → Prop}

/-- **A filter with no place filled twice** and no operator twice at a column, all of them with a property. -/
structure Tidy (P : Operator → Operand → Prop) (f : Filter) : Prop where
  nodup_keys : f.keys.Nodup
  conditions : ∀ c ∈ f, c.Tidy P

theorem everywhere_iff {f : Filter} : f.Everywhere Q ↔ Q f ∧ ∀ c ∈ f, c.Everywhere Q := by
  constructor
  · intro h
    refine ⟨h f .self, fun c hc => ?_⟩
    cases c with
    | column name ops => trivial
    | group logic gs => exact fun g hg k hk => h k (.group hc hg hk)
    | negation g => exact fun k hk => h k (.negation hc hk)
  · rintro ⟨hf, hcs⟩ g hg
    cases hg with
    | self => exact hf
    | group hc hh hg => exact hcs _ hc _ hh g hg
    | negation hc hg => exact hcs _ hc g hg

/-! ## Conditions after an addition -/

theorem forall_mem_addGroup {R : Condition → Prop} {logic : Logic} {gs : List Filter} {f : Filter}
    (hf : ∀ c ∈ f, R c) (hnew : R (.group logic gs))
    (hjoin : ∀ es, R (.group logic es) → R (.group logic (es ++ gs))) :
    ∀ c ∈ f.addGroup logic gs, R c := by
  induction f with
  | nil => simpa [addGroup] using hnew
  | cons c f ih =>
    obtain ⟨hc, hcs⟩ := List.forall_mem_cons.mp hf
    have ih := List.forall_mem_cons.mpr ⟨hc, ih hcs⟩
    cases c with
    | column n ops => simpa only [addGroup] using ih
    | group l es =>
      rw [addGroup]
      split
      · rename_i hl
        subst hl
        exact List.forall_mem_cons.mpr ⟨hjoin es hc, hcs⟩
      · exact ih
    | negation g => simpa only [addGroup] using ih

theorem forall_mem_joinColumn {R : Condition → Prop} {name : String} {ops : OperatorMap} {f : Filter}
    (hf : ∀ c ∈ f, R c) (hnew : R (.column name ops))
    (hjoin : ∀ es, operatorsOf? name f = some es → R (.column name es) → R (.column name (es ++ ops))) :
    ∀ c ∈ f.joinColumn name ops, R c := by
  induction f with
  | nil => simpa [joinColumn] using hnew
  | cons c f ih =>
    obtain ⟨hc, hcs⟩ := List.forall_mem_cons.mp hf
    cases c with
    | column n es =>
      rw [joinColumn]
      split
      · rename_i hn
        subst hn
        exact List.forall_mem_cons.mpr ⟨hjoin es (by simp [operatorsOf?]) hc, hcs⟩
      · rename_i hn
        refine List.forall_mem_cons.mpr ⟨hc, ih hcs fun es hes => hjoin es ?_⟩
        rw [operatorsOf?, if_neg hn, hes]
    | group l gs => exact List.forall_mem_cons.mpr ⟨hc, ih hcs hjoin⟩
    | negation g => exact List.forall_mem_cons.mpr ⟨hc, ih hcs hjoin⟩

/-! ## What additions keep -/

theorem everywhere_tidy_iff {f : Filter} : f.Everywhere (Tidy P) ↔
    f.keys.Nodup ∧ ∀ c ∈ f, c.Tidy P ∧ c.Everywhere (Tidy P) := by
  rw [everywhere_iff]
  constructor
  · rintro ⟨htidy, hcs⟩
    exact ⟨htidy.nodup_keys, fun c hc => ⟨htidy.conditions c hc, hcs c hc⟩⟩
  · rintro ⟨hn, hcs⟩
    exact ⟨⟨hn, fun c hc => (hcs c hc).1⟩, fun c hc => (hcs c hc).2⟩

theorem everywhere_tidy_singleton {c : Condition} (h : c.Tidy P ∧ c.Everywhere (Tidy P)) :
    Everywhere (Tidy P) [c] := by
  refine everywhere_tidy_iff.mpr ⟨by simp [keys], fun d hd => ?_⟩
  obtain rfl := List.mem_singleton.mp hd
  exact h

theorem Everywhere.addGroup {f : Filter} {gs : List Filter} (hf : f.Everywhere (Tidy P)) (logic : Logic)
    (hgs : ∀ g ∈ gs, Everywhere (Tidy P) g) : (f.addGroup logic gs).Everywhere (Tidy P) := by
  obtain ⟨hn, hcs⟩ := everywhere_tidy_iff.mp hf
  refine everywhere_tidy_iff.mpr ⟨nodup_keys_addGroup hn, forall_mem_addGroup hcs ⟨trivial, hgs⟩ ?_⟩
  rintro es ⟨-, hes⟩
  exact ⟨trivial, fun g hg => (List.mem_append.mp hg).elim (hes g) (hgs g)⟩

theorem Everywhere.addColumn {f : Filter} {ops : OperatorMap} (hf : f.Everywhere (Tidy P)) (name : String)
    (hops : (Entries.keys ops).Nodup) (hP : ∀ e ∈ ops, P e.1 e.2) :
    (f.addColumn name ops).Everywhere (Tidy P) := by
  unfold Filter.addColumn
  split
  · -- the operators go to a filter of their own
    refine hf.addGroup .and fun g hg => ?_
    obtain rfl := List.mem_singleton.mp hg
    exact everywhere_tidy_singleton ⟨⟨hops, hP⟩, trivial⟩
  · rename_i hrepeats
    obtain ⟨hn, hcs⟩ := everywhere_tidy_iff.mp hf
    refine everywhere_tidy_iff.mpr ⟨?_, forall_mem_joinColumn hcs ⟨⟨hops, hP⟩, trivial⟩ ?_⟩
    · rw [keys_joinColumn]
      exact nodup_ite_append hn
    · rintro es hes ⟨⟨hesn, hesP⟩, -⟩
      have hnew := OperatorMap.overlaps_eq_false.mp (by simpa [repeatsOperator, hes] using hrepeats)
      refine ⟨⟨?_, fun e he => (List.mem_append.mp he).elim (hesP e) (hP e)⟩, trivial⟩
      rw [Entries.keys, List.map_append]
      exact List.nodup_append.mpr ⟨hesn, hops, fun a ha b hb hab => hnew b hb (hab ▸ ha)⟩

theorem Everywhere.addNegation {f g : Filter} (hf : f.Everywhere (Tidy P)) (hg : g.Everywhere (Tidy P)) :
    (f.addNegation g).Everywhere (Tidy P) := by
  have hn := nodup_keys_addNegation (everywhere_tidy_iff.mp hf).1 (g := g)
  unfold Filter.addNegation at hn ⊢
  split
  · refine hf.addGroup .and fun h hh => ?_
    obtain rfl := List.mem_singleton.mp hh
    exact everywhere_tidy_singleton ⟨trivial, hg⟩
  · rename_i hnone
    rw [if_neg hnone] at hn
    refine everywhere_tidy_iff.mpr ⟨hn, fun c hc => ?_⟩
    rcases List.mem_append.mp hc with hc | hc
    · exact (everywhere_tidy_iff.mp hf).2 c hc
    · obtain rfl := List.mem_singleton.mp hc
      exact ⟨trivial, hg⟩

/-- **Inside a filter that additions make** no place is filled twice and no operator stands twice at a
column. -/
theorem MadeOf.everywhere_tidy {f : Filter} (h : f.MadeOf P) : f.Everywhere (Tidy P) := by
  induction h with
  | empty => exact everywhere_tidy_iff.mpr ⟨by simp [keys], by simp⟩
  | addColumn _ name hops hP ih => exact ih.addColumn name hops hP
  | addGroup _ logic _ ih ihs => exact ih.addGroup logic ihs
  | addNegation _ _ ih ihg => exact ih.addNegation ihg

end Filter

end ResourceQuery
