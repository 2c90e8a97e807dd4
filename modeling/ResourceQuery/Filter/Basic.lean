import ResourceQuery.Json.Basic
import ResourceQuery.Operator

/-! # Filters

A filter is a list of conditions, all of which must hold: conditions on a column, a list of filters of
which all or any must hold, and the negation of a filter. A filter has at most one condition for each
column, one for each of the two kinds of group and one negation; what comes later joins it, or is
added inside the group whose filters must all hold.

* `addColumn`: operators new to the column join its condition; if one of them is there already, the
  new operators become a filter of their own in the `and` group.
* `addGroup`: filters join the group of their kind.
* `addNegation`: the first negation is a condition, any further one a filter in the `and` group.
* `nodup_keys_addGroup`, `nodup_keys_addNegation`: each place is filled at most once. -/

namespace ResourceQuery

/-- The operand of a text search. -/
structure TextSearch where
  query : String
  kind : Option SearchKind
  config : Option String
deriving DecidableEq, Repr

/-- **What an operator is applied to.** A negated operand is a map of operators that must not all hold. -/
inductive Operand where
  | value (v : Json)
  | textSearch (t : TextSearch)
  | negated (operators : List (Operator × Operand))
deriving Inhabited

/-- Operators with their operands, all of which must hold of one column. -/
abbrev OperatorMap := List (Operator × Operand)

namespace OperatorMap

/-- A single operator. -/
def single (op : Operator) (operand : Operand) : OperatorMap := [(op, operand)]

/-- A single operator that must not hold. -/
def negated (op : Operator) (operand : Operand) : OperatorMap :=
  single .not (.negated (single op operand))

/-- Whether both maps have an operator in common. -/
def overlaps (es fs : OperatorMap) : Bool := fs.any fun f => Entries.contains f.1 es

end OperatorMap

/-- How the filters of a group are joined. -/
inductive Logic where
  | and
  | or
deriving DecidableEq, Repr

namespace Logic

/-- The kind of group a word names. -/
def ofWord? (word : String) : Option Logic :=
  if word = "and" then some .and else if word = "or" then some .or else none

/-- The word of a kind of group. -/
def word : Logic → String
  | and => "and"
  | or => "or"

/-- The key of a group. -/
def name : Logic → String
  | and => "$and"
  | or => "$or"

end Logic

/-- **A condition of a filter.** -/
inductive Condition where
  | column (name : String) (operators : OperatorMap)
  | group (logic : Logic) (filters : List (List Condition))
  | negation (filter : List Condition)
deriving Inhabited

/-- **A filter**: conditions that must all hold. -/
abbrev Filter := List Condition

/-- The place of a condition in a filter. -/
inductive Filter.Key where
  | column (name : String)
  | group (logic : Logic)
  | negation
deriving DecidableEq, Repr

/-- The place of a condition. -/
def Condition.key : Condition → Filter.Key
  | column name _ => .column name
  | group logic _ => .group logic
  | negation _ => .negation

namespace Filter

/-- The places that are filled, in order. -/
def keys (f : Filter) : List Key := f.map Condition.key

/-- The condition at a place. -/
def find? (key : Key) (f : Filter) : Option Condition := List.find? (fun c => c.key == key) f

/-- The operators of a column. -/
def operatorsOf? (name : String) : Filter → Option OperatorMap
  | [] => none
  | .column n ops :: f => if n = name then some ops else operatorsOf? name f
  | _ :: f => operatorsOf? name f

/-- Operators put after those of a column. -/
def joinColumn (name : String) (ops : OperatorMap) : Filter → Filter
  | [] => [.column name ops]
  | .column n es :: f =>
    if n = name then .column n (es ++ ops) :: f else .column n es :: joinColumn name ops f
  | c :: f => c :: joinColumn name ops f

/-- **Filters put after those of a group.** -/
def addGroup (logic : Logic) (filters : List Filter) : Filter → Filter
  | [] => [.group logic filters]
  | .group l gs :: f =>
    if l = logic then .group l (gs ++ filters) :: f else .group l gs :: addGroup logic filters f
  | c :: f => c :: addGroup logic filters f

/-- Whether the column has one of the operators already. -/
def repeatsOperator (name : String) (ops : OperatorMap) (f : Filter) : Bool :=
  match operatorsOf? name f with
  | some es => OperatorMap.overlaps es ops
  | none => false

/-- **A condition on a column.** -/
def addColumn (name : String) (ops : OperatorMap) (f : Filter) : Filter :=
  if repeatsOperator name ops f then addGroup .and [[.column name ops]] f
  else joinColumn name ops f

/-- Whether the filter has a negation. -/
def hasNegation (f : Filter) : Bool := f.any fun c => c.key == .negation

/-- **The negation of a filter `g`**, as a condition of `f`. -/
def addNegation (f g : Filter) : Filter :=
  if hasNegation f then addGroup .and [[.negation g]] f else f ++ [.negation g]

/-- A filter on one column. -/
def column (name : String) (ops : OperatorMap) : Filter := addColumn name ops []

/-- A filter that is one group. -/
def group (logic : Logic) (filters : List Filter) : Filter := addGroup logic filters []

/-- A filter that is one negation. -/
def negation (g : Filter) : Filter := addNegation [] g

@[simp] theorem column_eq (name : String) (ops : OperatorMap) :
    column name ops = [.column name ops] := rfl

@[simp] theorem group_eq (logic : Logic) (filters : List Filter) :
    group logic filters = [.group logic filters] := rfl

@[simp] theorem negation_eq (g : Filter) : negation g = [.negation g] := rfl

/-! ## Places -/

theorem hasNegation_iff {f : Filter} : hasNegation f = true ↔ Key.negation ∈ keys f := by
  simp [hasNegation, keys]

theorem keys_joinColumn (name : String) (ops : OperatorMap) (f : Filter) :
    keys (joinColumn name ops f) =
      if .column name ∈ keys f then keys f else keys f ++ [.column name] := by
  induction f with
  | nil => simp [joinColumn, keys, Condition.key]
  | cons c f ih =>
    simp only [keys] at ih
    cases c with
    | column n es =>
      by_cases hn : n = name
      · simp [joinColumn, keys, Condition.key, hn]
      · simp only [joinColumn, hn, if_false, keys, List.map_cons, Condition.key, ih]
        grind
    | group l gs =>
      simp only [joinColumn, keys, List.map_cons, Condition.key, ih]
      grind
    | negation g =>
      simp only [joinColumn, keys, List.map_cons, Condition.key, ih]
      grind

theorem keys_addGroup (logic : Logic) (gs : List Filter) (f : Filter) :
    keys (addGroup logic gs f) =
      if .group logic ∈ keys f then keys f else keys f ++ [.group logic] := by
  induction f with
  | nil => simp [addGroup, keys, Condition.key]
  | cons c f ih =>
    simp only [keys] at ih
    cases c with
    | column n es =>
      simp only [addGroup, keys, List.map_cons, Condition.key, ih]
      grind
    | group l es =>
      by_cases hl : l = logic
      · simp [addGroup, keys, Condition.key, hl]
      · simp only [addGroup, hl, if_false, keys, List.map_cons, Condition.key, ih]
        grind
    | negation g =>
      simp only [addGroup, keys, List.map_cons, Condition.key, ih]
      grind

theorem nodup_ite_append {k : Key} {ks : List Key} (h : ks.Nodup) :
    (if k ∈ ks then ks else ks ++ [k]).Nodup := by
  by_cases hk : k ∈ ks
  · simpa [hk] using h
  · simp only [hk, if_false]
    rw [List.nodup_append]
    refine ⟨h, by simp, ?_⟩
    intro a ha b hb
    simp only [List.mem_singleton] at hb
    subst hb
    exact fun hab => hk (hab ▸ ha)

theorem nodup_keys_addGroup {logic : Logic} {gs : List Filter} {f : Filter} (h : (keys f).Nodup) :
    (keys (addGroup logic gs f)).Nodup := by
  rw [keys_addGroup]
  exact nodup_ite_append h

theorem nodup_keys_addNegation {g f : Filter} (h : (keys f).Nodup) :
    (keys (addNegation f g)).Nodup := by
  unfold addNegation
  split
  · exact nodup_keys_addGroup h
  · rename_i hn
    have hn' : Key.negation ∉ keys f := fun hm => hn (hasNegation_iff.2 hm)
    have hk : keys (f ++ [.negation g]) = if Key.negation ∈ keys f then keys f
        else keys f ++ [.negation] := by
      rw [if_neg hn']
      simp [keys, Condition.key]
    rw [hk]
    exact nodup_ite_append h

end Filter

end ResourceQuery
