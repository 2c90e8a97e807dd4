import ResourceQuery.Proofs.Filter.Meaning
import ResourceQuery.Proofs.Filter.Table

/-! # What the filters of a request are made of

The filters that are read from parameters are made by additions alone: of one operator at a time to a
column, of a list of filters to a group, of a group's negation. What holds of the operators that values say
holds of all operators in them (`madeOf_ofParams`). So their tables are made by additions too
(`built_ofParams`), and accumulate what else is added. -/

namespace ResourceQuery

/-- **A filter that additions make**, of operators with a property. -/
inductive Filter.MadeOf (P : Operator → Operand → Prop) : Filter → Prop where
  | empty : MadeOf P []
  | addColumn {f : Filter} {ops : OperatorMap} (hf : MadeOf P f) (name : String)
      (hops : (Entries.keys ops).Nodup) (hP : ∀ e ∈ ops, P e.1 e.2) : MadeOf P (f.addColumn name ops)
  | addGroup {f : Filter} {gs : List Filter} (hf : MadeOf P f) (logic : Logic)
      (hgs : ∀ g ∈ gs, MadeOf P g) : MadeOf P (f.addGroup logic gs)
  | addNegation {f g : Filter} (hf : MadeOf P f) (hg : MadeOf P g) : MadeOf P (f.addNegation g)

/-- **A filter whose table additions make.** -/
def Filter.Built (f : Filter) : Prop := Table.Built (Filter.table f)

theorem Filter.MadeOf.built {P : Operator → Operand → Prop} {f : Filter} (h : f.MadeOf P) : f.Built := by
  unfold Built
  induction h with
  | empty =>
    rw [table]
    exact .empty
  | addColumn _ name hops _ ih =>
    rw [table_addColumn name hops]
    exact .addColumn ih name hops
  | addGroup _ logic _ ih ihs =>
    rw [table_addGroup, tables_eq_map]
    refine .addGroup ih logic fun t ht => ?_
    obtain ⟨g, hg, rfl⟩ := List.mem_map.mp ht
    exact ihs g hg
  | addNegation _ _ ih ihg =>
    rw [table_addNegation]
    exact .addNegation ih ihg

/-! ## What is read -/

theorem FilterValue.exists_token_of_ofChars {cs : List Char} {ops : OperatorMap}
    (h : ofChars cs = .ok ops) : ∃ token raw, ops = plain token raw ∨ ops = negated token raw := by
  have read : ∀ {negate : Bool} {cs : List Char}, read negate cs = .ok ops →
      ∃ token raw, ops = plain token raw ∨ ops = negated token raw := by
    intro negate cs h
    unfold FilterValue.read at h
    simp only at h
    split at h
    · simp at h
    · obtain rfl := Except.ok.inj h
      cases negate with
      | false => exact ⟨_, _, Or.inl rfl⟩
      | true => exact ⟨_, _, Or.inr rfl⟩
  unfold ofChars at h
  split at h
  · exact read h
  · exact read h

/-- **A filter value is one operator** with its operand. -/
theorem FilterValue.exists_single_of_ofChars {cs : List Char} {ops : OperatorMap}
    (h : ofChars cs = .ok ops) : ∃ op operand, ops = .single op operand := by
  obtain ⟨token, raw, rfl | rfl⟩ := exists_token_of_ofChars h
  · exact ⟨_, _, rfl⟩
  · unfold negated
    split
    · exact ⟨_, _, rfl⟩
    · exact ⟨_, _, rfl⟩

theorem FilterValue.nodup_keys_of_ofChars {cs : List Char} {ops : OperatorMap}
    (h : ofChars cs = .ok ops) : (Entries.keys ops).Nodup := by
  obtain ⟨op, operand, rfl⟩ := exists_single_of_ofChars h
  simp [OperatorMap.single]

/-- **What all values say** of their operators. -/
def FilterValue.Say (P : Operator → Operand → Prop) : Prop :=
  ∀ {cs : List Char} {ops : OperatorMap}, ofChars cs = .ok ops → ∀ e ∈ ops, P e.1 e.2

variable {P : Operator → Operand → Prop}

namespace Expression

theorem madeOf_of_conditionFilter (hP : FilterValue.Say P) {text : List Char} {f : Filter}
    (h : conditionFilter text = .ok f) : f.MadeOf P := by
  unfold conditionFilter at h
  simp only at h
  split at h
  · simp at h
  · split at h
    · simp at h
    · rename_i hops
      obtain rfl := Except.ok.inj h
      exact .addColumn .empty _ (FilterValue.nodup_keys_of_ofChars hops) (hP hops)

mutual
theorem madeOf_of_filter (hP : FilterValue.Say P) : ∀ {e : Expression} {f : Filter},
    e.filter = .ok f → f.MadeOf P
  | .condition text, f, h => by
    rw [filter] at h
    exact madeOf_of_conditionFilter hP h
  | .group logic negated items, f, h => by
    rw [filter] at h
    split at h
    · simp at h
    · rename_i gs hgs
      obtain rfl := Except.ok.inj h
      have hgroup : (Filter.group logic gs).MadeOf P := .addGroup .empty logic (madeOf_of_filters hP hgs)
      cases negated with
      | false => exact hgroup
      | true => exact .addNegation .empty hgroup

theorem madeOf_of_filters (hP : FilterValue.Say P) : ∀ {es : List Expression} {gs : List Filter},
    filters es = .ok gs → ∀ g ∈ gs, Filter.MadeOf P g
  | [], gs, h => by
    obtain rfl := Except.ok.inj h
    simp
  | e :: es, gs, h => by
    rw [filters] at h
    split at h
    · exact madeOf_of_filters hP h
    · split at h
      · simp at h
      · rename_i g hg
        split at h
        · simp at h
        · rename_i gs' hgs
          obtain rfl := Except.ok.inj h
          intro g' hg'
          rcases List.mem_cons.mp hg' with rfl | hg'
          · exact madeOf_of_filter hP hg
          · exact madeOf_of_filters hP hgs g' hg'
end

end Expression

theorem FilterGroup.madeOf_of_parse (hP : FilterValue.Say P) {text : String} {gs : List Filter}
    (h : parse text = .ok gs) : ∀ g ∈ gs, Filter.MadeOf P g := by
  unfold parse at h
  split at h
  · simp at h
  · simp at h
  · exact Expression.madeOf_of_filters hP h

/-! ## What a parameter adds -/

namespace Filters

theorem madeOf_of_pool (hP : FilterValue.Say P) {values : List String} {gs : List Filter}
    (h : pool values = .ok gs) : ∀ g ∈ gs, Filter.MadeOf P g := by
  induction values generalizing gs with
  | nil =>
    obtain rfl := Except.ok.inj h
    simp
  | cons v vs ih =>
    rw [pool] at h
    obtain ⟨gs', hgs', h⟩ := Refusal.bind_eq_ok.mp h
    obtain ⟨hs, hhs, h⟩ := Refusal.bind_eq_ok.mp h
    obtain rfl := Except.ok.inj h
    intro g hg
    rcases List.mem_append.mp hg with hg | hg
    · exact FilterGroup.madeOf_of_parse hP hgs' g hg
    · exact ih hhs g hg

theorem madeOf_of_addValues (hP : FilterValue.Say P) {name : String} {values : List String}
    {f f' : Filter} (hf : f.MadeOf P) (h : addValues name values f = .ok f') : f'.MadeOf P := by
  induction values generalizing f with
  | nil =>
    obtain rfl := Except.ok.inj h
    exact hf
  | cons v vs ih =>
    rw [addValues] at h
    obtain ⟨ops, hops, h⟩ := Refusal.bind_eq_ok.mp h
    exact ih (hf.addColumn name (FilterValue.nodup_keys_of_ofChars hops) (hP hops)) h

/-- **What a key adds, additions make.** -/
theorem madeOf_of_applyKey (hP : FilterValue.Say P) {key : String} {values : List String}
    {f f' : Filter} (hf : f.MadeOf P) (h : applyKey key values f = .ok f') : f'.MadeOf P := by
  unfold applyKey at h
  split at h
  · rename_i logic negated _
    obtain ⟨gs, hgs, h⟩ := Refusal.bind_eq_ok.mp h
    obtain rfl := Except.ok.inj h
    have hgs := madeOf_of_pool hP hgs
    cases negated with
    | false => exact hf.addGroup logic hgs
    | true => exact hf.addNegation (.addGroup .empty logic hgs)
  · exact madeOf_of_addValues hP hf h

/-- **The filters of a request are made by additions**, its own and those of its embeds, of operators that
values say. -/
theorem madeOf_ofParams (hP : FilterValue.Say P) {params : QueryParams} {tree : AliasTree} {fs : Filters}
    (h : ofParams params tree = .ok fs) : ∀ path f, at? path fs = some f → f.MadeOf P := by
  refine Refusal.foldlM_invariant (P := fun fs => ∀ path f, at? path fs = some f → f.MadeOf P) ?_ ?_ h
  · intro fs e fs' hfs hstep
    rw [step_eq] at hstep
    split at hstep
    · obtain rfl := Except.ok.inj hstep
      exact hfs
    · rename_i path key _
      obtain ⟨g, hg, hat⟩ := at?_modify hstep
      have hbefore : ((at? path fs).getD []).MadeOf P := by
        cases hpath : at? path fs with
        | none => exact .empty
        | some f => exact hfs path f hpath
      intro p f hp
      rw [hat] at hp
      split at hp
      · obtain rfl := Option.some.inj hp
        exact madeOf_of_applyKey hP hbefore hg
      · exact hfs p f hp
  · intro path f hat
    unfold at? at hat
    split at hat
    · obtain rfl := Option.some.inj hat
      exact .empty
    · simp at hat

theorem built_ofParams {params : QueryParams} {tree : AliasTree} {fs : Filters}
    (h : ofParams params tree = .ok fs) : ∀ path f, at? path fs = some f → f.Built :=
  fun path f hat => (madeOf_ofParams (P := fun _ _ => True) (fun _ _ _ => trivial) h path f hat).built

end Filters

end ResourceQuery
