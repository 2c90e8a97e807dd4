import ResourceQuery.Filter.Basic

/-! # What a filter means

Under a valuation that decides every atom (a column, an operator, an operand), a filter is true or
false: its conditions must all hold, the operators of a column must all hold, a negated operand is the
negation of its map, and the two kinds of group are 'all' and 'any'.

* `holds_addColumn`: a condition added to a column is a further conjunct, wherever it went.
* `holds_addNegation`: so is an added negation.
* `holds_addGroup_and`, `holds_addGroup_or`: filters added to a group are further members of it. -/

namespace ResourceQuery

/-- **What is true** of a column, an operator and an operand. -/
abbrev Valuation := String → Operator → Operand → Bool

mutual
/-- Whether an operator holds of a column. -/
def Operand.holds (ν : Valuation) (column : String) (op : Operator) : Operand → Bool
  | .value v => ν column op (.value v)
  | .textSearch t => ν column op (.textSearch t)
  | .negated ops => !(OperatorMap.holds ν column ops)

/-- Whether all the operators hold of a column. -/
def OperatorMap.holds (ν : Valuation) (column : String) : List (Operator × Operand) → Bool
  | [] => true
  | (op, operand) :: ops => Operand.holds ν column op operand && OperatorMap.holds ν column ops
end

mutual
/-- Whether a condition holds. -/
def Condition.holds (ν : Valuation) : Condition → Bool
  | .column name ops => OperatorMap.holds ν name ops
  | .group .and gs => Filter.allHold ν gs
  | .group .or gs => Filter.anyHolds ν gs
  | .negation g => !(Filter.holds ν g)

/-- **Whether a filter holds.** -/
def Filter.holds (ν : Valuation) : List Condition → Bool
  | [] => true
  | c :: f => Condition.holds ν c && Filter.holds ν f

/-- Whether all of the filters hold. -/
def Filter.allHold (ν : Valuation) : List (List Condition) → Bool
  | [] => true
  | g :: gs => Filter.holds ν g && Filter.allHold ν gs

/-- Whether one of the filters holds. -/
def Filter.anyHolds (ν : Valuation) : List (List Condition) → Bool
  | [] => false
  | g :: gs => Filter.holds ν g || Filter.anyHolds ν gs
end

/-- Whether a group of filters holds. -/
def Logic.holds (ν : Valuation) : Logic → List Filter → Bool
  | .and, gs => Filter.allHold ν gs
  | .or, gs => Filter.anyHolds ν gs

variable (ν : Valuation)

namespace OperatorMap

@[simp] theorem holds_nil (column : String) : holds ν column [] = true := by simp [holds]

@[simp] theorem holds_cons (column : String) (op : Operator) (operand : Operand)
    (ops : OperatorMap) :
    holds ν column ((op, operand) :: ops) =
      (Operand.holds ν column op operand && holds ν column ops) := by simp [holds]

@[simp] theorem holds_append (column : String) (es fs : OperatorMap) :
    holds ν column (es ++ fs) = (holds ν column es && holds ν column fs) := by
  induction es with
  | nil => simp
  | cons e es ih => obtain ⟨op, o⟩ := e; simp [ih, Bool.and_assoc]

end OperatorMap

namespace Filter

@[simp] theorem holds_nil : holds ν [] = true := by simp [holds]

@[simp] theorem holds_cons (c : Condition) (f : Filter) :
    holds ν (c :: f) = (Condition.holds ν c && holds ν f) := by simp [holds]

@[simp] theorem allHold_eq (gs : List Filter) : allHold ν gs = gs.all (holds ν) := by
  induction gs with
  | nil => simp [allHold]
  | cons g gs ih => simp [allHold, ih]

@[simp] theorem anyHolds_eq (gs : List Filter) : anyHolds ν gs = gs.any (holds ν) := by
  induction gs with
  | nil => simp [anyHolds]
  | cons g gs ih => simp [anyHolds, ih]

theorem holds_eq (f : Filter) : holds ν f = f.all (Condition.holds ν) := by
  induction f with
  | nil => simp
  | cons c f ih => simp [ih]

@[simp] theorem holds_append (f g : Filter) : holds ν (f ++ g) = (holds ν f && holds ν g) := by
  simp [holds_eq]

/-! ## Additions -/

theorem holds_joinColumn (name : String) (ops : OperatorMap) (f : Filter) :
    holds ν (joinColumn name ops f) = (holds ν f && OperatorMap.holds ν name ops) := by
  induction f with
  | nil => simp [joinColumn, Condition.holds]
  | cons c f ih =>
    cases c with
    | column n es =>
      by_cases hn : n = name
      · subst hn
        simp [joinColumn, Condition.holds, Bool.and_comm, Bool.and_left_comm]
      · simp [joinColumn, hn, ih, Bool.and_assoc]
    | group l gs => simp [joinColumn, ih, Bool.and_assoc]
    | negation g => simp [joinColumn, ih, Bool.and_assoc]

/-- **Filters added to the `and` group are further conjuncts.** -/
theorem holds_addGroup_and (gs : List Filter) (f : Filter) :
    holds ν (addGroup .and gs f) = (holds ν f && gs.all (holds ν)) := by
  induction f with
  | nil => simp [addGroup, Condition.holds]
  | cons c f ih =>
    cases c with
    | column n es => simp [addGroup, ih, Bool.and_assoc]
    | group l es =>
      cases l with
      | and => simp [addGroup, Condition.holds, Bool.and_assoc, Bool.and_comm]
      | or => simp [addGroup, ih, Bool.and_assoc]
    | negation g => simp [addGroup, ih, Bool.and_assoc]

/-- Without an `or` group, filters added to it are a disjunction that must hold as well. -/
theorem holds_addGroup_or {gs : List Filter} {f : Filter} (h : Key.group .or ∉ keys f) :
    holds ν (addGroup .or gs f) = (holds ν f && gs.any (holds ν)) := by
  induction f with
  | nil => simp [addGroup, Condition.holds]
  | cons c f ih =>
    have ih := ih fun hm => h (by simp only [keys] at hm ⊢; simp [hm])
    cases c with
    | column n es => simp [addGroup, ih, Bool.and_assoc]
    | group l es =>
      cases l with
      | and => simp [addGroup, ih, Bool.and_assoc]
      | or => exact absurd (by simp [keys, Condition.key]) h
    | negation g => simp [addGroup, ih, Bool.and_assoc]

/-- **A condition added to a column is a further conjunct.** -/
theorem holds_addColumn (name : String) (ops : OperatorMap) (f : Filter) :
    holds ν (addColumn name ops f) = (holds ν f && OperatorMap.holds ν name ops) := by
  unfold addColumn
  split
  · rw [holds_addGroup_and]
    simp [Condition.holds]
  · exact holds_joinColumn ν name ops f

/-- **An added negation is a further conjunct.** -/
theorem holds_addNegation (g f : Filter) :
    holds ν (addNegation f g) = (holds ν f && !(holds ν g)) := by
  unfold addNegation
  split
  · rw [holds_addGroup_and]
    simp [Condition.holds]
  · simp [Condition.holds]

end Filter

end ResourceQuery
