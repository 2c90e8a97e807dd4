import ResourceQuery.Filter.Collect
import ResourceQuery.Filter.Truth
import ResourceQuery.Proofs.Filter.LogicTree
import ResourceQuery.Proofs.Refusal

/-! # What the keys of a filter say

A key with its values says one thing: that a column meets a condition for each value, or that all or any
of the filters its values list hold, or that they do not. A *clause* is what a key says, read on its own;
what the key does to a filter is to add its clause (`applyKey_eq`).

* `Clause.holds`, `Clause.atoms`: what a clause means, and which atoms it is about.
* `holds_addTo`: an added clause is a further conjunct. An `or` group must be the first of its filter.
* `atoms_addTo`: it brings exactly its own atoms.
* `holds_column_iff`: a column's clause, value by value. -/

namespace ResourceQuery

/-! ## Atoms -/

/-- A column, an operator and an operand, of which a valuation says whether they are true. -/
abbrev Atom := String × Operator × Operand

mutual
/-- The atoms of an operator, under its column. -/
def Operand.atoms (column : String) (op : Operator) : Operand → List Atom
  | .value v => [(column, op, .value v)]
  | .textSearch t => [(column, op, .textSearch t)]
  | .negated ops => OperatorMap.atoms column ops

/-- The atoms of operators, under their column. -/
def OperatorMap.atoms (column : String) : List (Operator × Operand) → List Atom
  | [] => []
  | (op, operand) :: ops => Operand.atoms column op operand ++ OperatorMap.atoms column ops
end

mutual
/-- The atoms of a condition. -/
def Condition.atoms : Condition → List Atom
  | .column name ops => OperatorMap.atoms name ops
  | .group _ gs => Filter.atomsAll gs
  | .negation g => Filter.atoms g

/-- **The atoms of a filter**, at any depth, each as often as it stands there. -/
def Filter.atoms : List Condition → List Atom
  | [] => []
  | c :: f => Condition.atoms c ++ Filter.atoms f

/-- The atoms of several filters. -/
def Filter.atomsAll : List (List Condition) → List Atom
  | [] => []
  | g :: gs => Filter.atoms g ++ Filter.atomsAll gs
end

namespace OperatorMap

theorem atoms_append (column : String) (es fs : OperatorMap) :
    atoms column (es ++ fs) = atoms column es ++ atoms column fs := by
  induction es with
  | nil => simp [atoms]
  | cons e es ih =>
    obtain ⟨op, operand⟩ := e
    simp [atoms, ih]

end OperatorMap

namespace Filter

theorem atoms_append (f g : Filter) : atoms (f ++ g) = atoms f ++ atoms g := by
  induction f with
  | nil => simp [atoms]
  | cons c f ih => simp [atoms, ih]

theorem atomsAll_append (fs gs : List Filter) :
    atomsAll (fs ++ gs) = atomsAll fs ++ atomsAll gs := by
  induction fs with
  | nil => simp [atomsAll]
  | cons f fs ih => simp [atomsAll, ih]

theorem atoms_joinColumn (name : String) (ops : OperatorMap) (f : Filter) :
    (atoms (joinColumn name ops f)).Perm (atoms f ++ OperatorMap.atoms name ops) := by
  induction f with
  | nil => simp [joinColumn, atoms, Condition.atoms]
  | cons c f ih =>
    cases c with
    | column n es =>
      by_cases hn : n = name
      · subst hn
        simp only [joinColumn, if_true, atoms, Condition.atoms, OperatorMap.atoms_append,
          List.append_assoc]
        exact List.perm_append_comm.append_left _
      · simp only [joinColumn, hn, if_false, atoms, List.append_assoc]
        exact ih.append_left _
    | group l gs =>
      simp only [joinColumn, atoms, List.append_assoc]
      exact ih.append_left _
    | negation g =>
      simp only [joinColumn, atoms, List.append_assoc]
      exact ih.append_left _

theorem atoms_addGroup (logic : Logic) (gs : List Filter) (f : Filter) :
    (atoms (addGroup logic gs f)).Perm (atoms f ++ atomsAll gs) := by
  induction f with
  | nil => simp [addGroup, atoms, Condition.atoms]
  | cons c f ih =>
    cases c with
    | column n es =>
      simp only [addGroup, atoms, List.append_assoc]
      exact ih.append_left _
    | group l es =>
      by_cases hl : l = logic
      · subst hl
        simp only [addGroup, if_true, atoms, Condition.atoms, atomsAll_append, List.append_assoc]
        exact List.perm_append_comm.append_left _
      · simp only [addGroup, hl, if_false, atoms, List.append_assoc]
        exact ih.append_left _
    | negation g =>
      simp only [addGroup, atoms, List.append_assoc]
      exact ih.append_left _

theorem atoms_addColumn (name : String) (ops : OperatorMap) (f : Filter) :
    (atoms (addColumn name ops f)).Perm (atoms f ++ OperatorMap.atoms name ops) := by
  unfold addColumn
  split
  · have h := atoms_addGroup .and [[.column name ops]] f
    simpa [atomsAll, atoms, Condition.atoms] using h
  · exact atoms_joinColumn name ops f

theorem atoms_addNegation (f g : Filter) :
    (atoms (addNegation f g)).Perm (atoms f ++ atoms g) := by
  unfold addNegation
  split
  · have h := atoms_addGroup .and [[.negation g]] f
    simpa [atomsAll, atoms, Condition.atoms] using h
  · simp [atoms_append, atoms, Condition.atoms]

end Filter

/-! ## Group keys -/

theorem Logic.ofWord?_eq_some_iff {word : String} {logic : Logic} :
    ofWord? word = some logic ↔ word = logic.word := by
  unfold ofWord?
  constructor
  · intro h
    split at h
    · obtain rfl := Option.some.inj h
      assumption
    · split at h
      · obtain rfl := Option.some.inj h
        assumption
      · simp at h
  · rintro rfl
    cases logic <;> rfl

theorem Filters.groupKey?_eq_some_iff {key : String} {logic : Logic} {negated : Bool} :
    groupKey? key = some (logic, negated) ↔ key = LogicTree.groupWord logic negated := by
  constructor
  · intro h
    unfold groupKey? at h
    cases hdrop : Text.dropLead? FilterValue.notMark key.toList with
    | none =>
      simp only [hdrop, Option.map_eq_some_iff, Prod.mk.injEq] at h
      obtain ⟨l, hl, rfl, rfl⟩ := h
      rw [Logic.ofWord?_eq_some_iff.mp hl]
      cases l <;> rfl
    | some name =>
      simp only [hdrop, Option.map_eq_some_iff, Prod.mk.injEq] at h
      obtain ⟨l, hl, rfl, rfl⟩ := h
      have hkey : key = String.ofList (FilterValue.notMark ++ name) := by
        rw [← Text.dropLead?_eq_some.mp hdrop, String.ofList_toList]
      have hname : String.ofList name = l.word := Logic.ofWord?_eq_some_iff.mp hl
      rw [hkey, String.ofList_append, hname]
      cases l <;> rfl
  · rintro rfl
    cases logic <;> cases negated <;> decide

/-! ## Clauses -/

/-- **What a key says.** -/
inductive Clause where
  | column (name : String) (conditions : List OperatorMap)
  | group (logic : Logic) (negated : Bool) (filters : List Filter)
deriving Inhabited

namespace Clause

/-- **What a key and its values say**: `and`, `or`, `not.and` and `not.or` take the filters of all values
together; any other key is a column, with one condition for each value. -/
def read (key : String) (values : List String) : Except FilterError Clause :=
  match Filters.groupKey? key with
  | some (logic, negated) =>
    (values.mapM FilterGroup.parse).map fun gs => .group logic negated gs.flatten
  | none => (values.mapM FilterValue.parse).map (.column key)

/-- **Whether a clause holds.** -/
def holds (ν : Valuation) : Clause → Bool
  | column name conditions => conditions.all (OperatorMap.holds ν name)
  | group .and negated filters => negated ^^ filters.all (Filter.holds ν)
  | group .or negated filters => negated ^^ filters.any (Filter.holds ν)

/-- The atoms of a clause. -/
def atoms : Clause → List Atom
  | column name conditions => conditions.flatMap (OperatorMap.atoms name)
  | group _ _ filters => filters.flatMap Filter.atoms

/-- A filter with one more clause. -/
def addTo (f : Filter) : Clause → Filter
  | column name conditions => conditions.foldl (fun f ops => f.addColumn name ops) f
  | group logic true filters => f.addNegation (.group logic filters)
  | group logic false filters => f.addGroup logic filters

/-! ## Keys add their clauses -/

theorem pool_eq (values : List String) :
    Filters.pool values = (values.mapM FilterGroup.parse).map List.flatten := by
  induction values with
  | nil => rfl
  | cons v vs ih =>
    rw [Filters.pool, ih, List.mapM_cons]
    cases FilterGroup.parse v with
    | error e => rfl
    | ok gs => cases vs.mapM FilterGroup.parse <;> rfl

theorem addValues_eq (name : String) (values : List String) (f : Filter) :
    Filters.addValues name values f =
      (values.mapM FilterValue.parse).map fun cs => cs.foldl (fun f ops => f.addColumn name ops) f := by
  rw [← Refusal.foldlM_map_eq]
  induction values generalizing f with
  | nil => rfl
  | cons v vs ih =>
    rw [Filters.addValues, List.foldlM_cons]
    cases FilterValue.parse v with
    | error e => rfl
    | ok ops => exact ih (f.addColumn name ops)

/-- **What a key does to a filter is to add its clause.** -/
theorem applyKey_eq (key : String) (values : List String) (f : Filter) :
    Filters.applyKey key values f = (read key values).map (addTo f) := by
  unfold Filters.applyKey read
  cases Filters.groupKey? key with
  | none =>
    simp only [addValues_eq]
    cases values.mapM FilterValue.parse <;> rfl
  | some p =>
    obtain ⟨logic, negated⟩ := p
    simp only [pool_eq]
    cases values.mapM FilterGroup.parse with
    | error e => rfl
    | ok gs => cases negated <;> rfl

/-! ## What a clause adds -/

/-- An `or` group, whose filters would mix with those of another one. -/
def isDisjunction : Clause → Prop
  | group .or false _ => True
  | _ => False

/-- **An added clause is a further conjunct.** -/
theorem holds_addTo (ν : Valuation) {f : Filter} {c : Clause}
    (h : c.isDisjunction → Filter.Key.group .or ∉ f.keys) :
    Filter.holds ν (addTo f c) = (Filter.holds ν f && c.holds ν) := by
  cases c with
  | column name conditions =>
    simp only [addTo, holds]
    induction conditions generalizing f with
    | nil => simp
    | cons ops conditions ih =>
      rw [List.foldl_cons, ih (by simp [isDisjunction]), Filter.holds_addColumn, List.all_cons,
        Bool.and_assoc]
  | group logic negated filters =>
    cases negated with
    | true =>
      simp only [addTo, Filter.holds_addNegation]
      cases logic <;> simp [holds, Condition.holds]
    | false =>
      cases logic with
      | and => simp [addTo, holds, Filter.holds_addGroup_and]
      | or => simp [addTo, holds, Filter.holds_addGroup_or ν (h trivial)]

theorem atomsAll_eq_flatMap (gs : List Filter) : Filter.atomsAll gs = gs.flatMap Filter.atoms := by
  induction gs with
  | nil => simp [Filter.atomsAll]
  | cons g gs ih => simp [Filter.atomsAll, ih]

/-- **An added clause brings its own atoms and loses none.** -/
theorem atoms_addTo (f : Filter) (c : Clause) :
    (Filter.atoms (addTo f c)).Perm (Filter.atoms f ++ c.atoms) := by
  cases c with
  | column name conditions =>
    simp only [addTo, atoms]
    induction conditions generalizing f with
    | nil => simp
    | cons ops conditions ih =>
      rw [List.foldl_cons, List.flatMap_cons, ← List.append_assoc]
      exact (ih _).trans ((Filter.atoms_addColumn name ops f).append_right _)
  | group logic negated filters =>
    simp only [atoms, ← atomsAll_eq_flatMap]
    cases negated with
    | true =>
      have h := Filter.atoms_addNegation f (.group logic filters)
      simpa [addTo, Filter.atoms, Condition.atoms] using h
    | false => exact Filter.atoms_addGroup logic filters f

/-- A place for an `or` group comes from an `or` group only. -/
theorem mem_keys_addTo {f : Filter} {c : Clause} (h : Filter.Key.group .or ∈ (addTo f c).keys) :
    Filter.Key.group .or ∈ f.keys ∨ c.isDisjunction := by
  have addGroup : ∀ {l : Logic} {gs : List Filter} {f : Filter},
      Filter.Key.group .or ∈ (f.addGroup l gs).keys → Filter.Key.group .or ∈ f.keys ∨ l = .or := by
    intro l gs f h
    rw [Filter.keys_addGroup] at h
    split at h
    · exact Or.inl h
    · simpa [eq_comm] using h
  cases c with
  | column name conditions =>
    left
    simp only [addTo] at h
    induction conditions generalizing f with
    | nil => exact h
    | cons ops conditions ih =>
      rw [List.foldl_cons] at h
      have h := ih h
      unfold Filter.addColumn at h
      split at h
      · simpa using addGroup h
      · rw [Filter.keys_joinColumn] at h
        split at h
        · exact h
        · simpa using h
  | group logic negated filters =>
    cases negated with
    | true =>
      left
      simp only [addTo, Filter.addNegation] at h
      split at h
      · simpa using addGroup h
      · simpa [Filter.keys, Condition.key] using h
    | false =>
      rcases addGroup h with h | rfl
      · exact Or.inl h
      · exact Or.inr trivial

theorem eq_or_of_read {key : String} {values : List String} {c : Clause}
    (h : read key values = .ok c) (hc : c.isDisjunction) : key = "or" := by
  unfold read at h
  cases hg : Filters.groupKey? key with
  | none =>
    rw [hg] at h
    obtain ⟨cs, -, rfl⟩ := Refusal.map_eq_ok.mp h
    exact absurd hc (by simp [isDisjunction])
  | some p =>
    obtain ⟨logic, negated⟩ := p
    rw [hg] at h
    obtain ⟨gs, -, rfl⟩ := Refusal.map_eq_ok.mp h
    obtain ⟨rfl, rfl⟩ : logic = .or ∧ negated = false := by
      cases logic <;> cases negated <;> simp_all [isDisjunction]
    exact Filters.groupKey?_eq_some_iff.mp hg

/-! ## Clauses of columns -/

theorem read_column {key : String} (hkey : Filters.groupKey? key = none) (values : List String) :
    read key values = (values.mapM FilterValue.parse).map (.column key) := by
  rw [read, hkey]

theorem exists_read_column_iff {key : String} (hkey : Filters.groupKey? key = none) {values : List String} :
    (∃ c, read key values = .ok c) ↔ ∀ value ∈ values, ∃ ops, FilterValue.parse value = .ok ops := by
  rw [read_column hkey, ← Refusal.exists_mapM_iff]
  simp only [Refusal.map_eq_ok]
  constructor
  · rintro ⟨c, conditions, h, -⟩
    exact ⟨conditions, h⟩
  · rintro ⟨conditions, h⟩
    exact ⟨_, conditions, h, rfl⟩

/-- **A column holds if each of its values does.** -/
theorem holds_column_iff {key : String} {values : List String} {c : Clause}
    (hkey : Filters.groupKey? key = none) (hread : read key values = .ok c) {ν : Valuation} :
    c.holds ν = true ↔ ∀ value ∈ values, ∀ ops, FilterValue.parse value = .ok ops →
      OperatorMap.holds ν key ops = true := by
  rw [read_column hkey] at hread
  obtain ⟨conditions, hconditions, rfl⟩ := Refusal.map_eq_ok.mp hread
  rw [holds, List.all_eq_true]
  constructor
  · intro h value hvalue ops hops
    obtain ⟨ops', hmem, hops'⟩ := Refusal.exists_of_mapM hconditions hvalue
    obtain rfl : ops = ops' := Except.ok.inj (hops.symm.trans hops')
    exact h ops hmem
  · intro h ops hmem
    obtain ⟨value, hvalue, hops⟩ := Refusal.mem_of_mapM hconditions hmem
    exact h value hvalue ops hops

end Clause

end ResourceQuery
