import ResourceQuery.Filter.Json
import ResourceQuery.Proofs.Filter.Inside
import ResourceQuery.Proofs.Json.Distinct

/-! # Filters that name no key twice

A filter is written under the names of its places. Two places of a filter have one name only if one of them
is a column called like a group or the negation beside it, so a filter names no key twice exactly if there is no
such column anywhere in it (`distinctKeys_json_iff`). The operators of a column have different names, and
what values say names no key twice. -/

namespace ResourceQuery

/-! ## Names of operators -/

namespace Operator

/-- All comparisons. -/
def comparisons : List Comparison := Comparison.tokens.map Prod.snd

/-- All operators. -/
def operators : List Operator :=
  comparisons.map .comparison ++ comparisons.flatMap (fun c => [.quantified c .any, .quantified c .all]) ++
    [.notIn, .textSearch, .not]

theorem mem_operators (op : Operator) : op ∈ operators := by
  have hmem : ∀ c : Comparison, c ∈ comparisons := by
    intro c
    cases c <;> decide
  unfold operators
  cases op with
  | comparison c => simp [hmem c]
  | quantified c q => cases q <;> simp [hmem c]
  | notIn => simp
  | textSearch => simp
  | not => simp

theorem name_injective : Function.Injective name := by
  have hn : (operators.map name).Nodup := by decide +kernel
  intro op op' h
  exact List.inj_on_of_nodup_map hn (mem_operators op) (mem_operators op') h

end Operator

/-! ## What values say -/

theorem OperatorMap.fields_eq_map (ops : OperatorMap) :
    fields ops = ops.map fun e => (e.1.name, e.2.json) := by
  induction ops with
  | nil => simp [fields]
  | cons e ops ih =>
    obtain ⟨op, operand⟩ := e
    simp [fields, ih]

/-- **Operators that are written**: none of them twice, and no operand with a key twice. -/
theorem OperatorMap.distinctKeys_json {ops : OperatorMap} (hn : (Entries.keys ops).Nodup)
    (h : ∀ e ∈ ops, e.2.json.DistinctKeys) : ops.json.DistinctKeys := by
  rw [json, fields_eq_map, Json.distinctKeys_obj_iff]
  constructor
  · have hkeys : Entries.keys (ops.map fun e => (e.1.name, e.2.json)) =
        (Entries.keys ops).map Operator.name := by simp [Entries.keys]
    rw [hkeys]
    exact hn.map Operator.name_injective
  · intro f hf
    obtain ⟨e, he, rfl⟩ := List.mem_map.mp hf
    exact h e he

@[simp] theorem Operand.json_value (v : Json) : (value v).json = v := by rw [json]

@[simp] theorem Operand.json_negated (ops : OperatorMap) : (negated ops).json = ops.json := by
  rw [json]
  rfl

theorem OperatorMap.distinctKeys_single {op : Operator} {operand : Operand}
    (h : operand.json.DistinctKeys) : (single op operand).json.DistinctKeys :=
  distinctKeys_json (by simp [single]) (by simpa [single] using h)

theorem TextSearch.distinctKeys_json (t : TextSearch) : t.json.DistinctKeys := by
  have hjson : t.json = .obj (Json.present [("query", some (.str t.query)),
      ("type", t.kind.map fun k => .str k.name), ("config", t.config.map .str)]) := by
    simp [json, Json.present, Json.cons_eq_field?_append]
  rw [hjson, Json.distinctKeys_present_iff (by simp [Entries.keys])]
  simp

/-- An operand that names no key twice. -/
def Operand.NamesOnce (_ : Operator) (operand : Operand) : Prop := operand.json.DistinctKeys

namespace FilterValue

theorem distinctKeys_containment (raw : String) : (containment raw).DistinctKeys := by
  unfold containment
  split
  · split
    · rename_i h
      exact Json.distinctKeys_of_ofChars? h
    · exact Json.distinctKeys_arr_iff.mpr (ListLiteral.distinctKeys_items _ _)
  · simp
  · simp
  · exact Scalar.distinctKeys_coerce raw

theorem distinctKeys_quantified (raw : String) : (quantified raw).DistinctKeys := by
  unfold quantified
  split
  · exact Json.distinctKeys_arr_iff.mpr (ListLiteral.distinctKeys_items _ _)
  · exact Json.distinctKeys_arr_iff.mpr (ListLiteral.distinctKeys_items _ _)

theorem distinctKeys_operand (token : OperatorToken) (raw : String) :
    (operand token raw).json.DistinctKeys := by
  unfold operand
  split
  · exact TextSearch.distinctKeys_json _
  · exact distinctKeys_quantified raw
  · split_ifs
    · exact Json.distinctKeys_arr_iff.mpr (ListLiteral.distinctKeys_items _ _)
    · exact distinctKeys_containment raw
    · exact Json.distinctKeys_str raw
    · exact Scalar.distinctKeys_coerce raw

theorem say_namesOnce : Say Operand.NamesOnce := by
  intro cs ops h
  obtain ⟨token, raw, rfl | rfl⟩ := exists_token_of_ofChars h
  · simpa [plain, OperatorMap.single, Operand.NamesOnce] using distinctKeys_operand token raw
  · unfold negated
    split
    · have hlist : (Json.arr (ListLiteral.parseIn raw)).DistinctKeys :=
        Json.distinctKeys_arr_iff.mpr (ListLiteral.distinctKeys_items _ _)
      simpa [OperatorMap.single, Operand.NamesOnce] using hlist
    · simpa [OperatorMap.negated, OperatorMap.single, Operand.NamesOnce] using
        OperatorMap.distinctKeys_single (distinctKeys_operand token raw)

end FilterValue

/-! ## What filters say -/

namespace Filter

/-- **No column is called like a group or the negation beside it.** -/
def Clear (f : Filter) : Prop :=
  ∀ name, Key.column name ∈ f.keys →
    (∀ logic, Key.group logic ∈ f.keys → name ≠ logic.name) ∧ (Key.negation ∈ f.keys → name ≠ "$not")

theorem fields_eq_map (f : Filter) : fields f = f.map fun c => (c.key.name, c.json) := by
  induction f with
  | nil => simp [fields]
  | cons c f ih => simp [fields, ih]

theorem jsonList_eq_map (gs : List Filter) : jsonList gs = gs.map json := by
  induction gs with
  | nil => simp [jsonList]
  | cons g gs ih => simp [jsonList, json, ih]

/-- **Different places have different names**, but for columns called like a group or the negation. -/
theorem nodup_map_name_iff {f : Filter} (hn : f.keys.Nodup) : (f.keys.map Key.name).Nodup ↔ f.Clear := by
  rw [List.nodup_map_iff_inj_on hn]
  constructor
  · intro h name hname
    refine ⟨fun logic hlogic heq => ?_, fun hneg heq => ?_⟩
    · simpa using h _ hname _ hlogic heq
    · simpa using h _ hname _ hneg heq
  · intro h k hk k' hk' heq
    cases k with
    | column name =>
      cases k' with
      | column name' => exact congrArg Key.column heq
      | group logic => exact absurd heq ((h name hk).1 logic hk')
      | negation => exact absurd heq ((h name hk).2 hk')
    | group logic =>
      cases k' with
      | column name => exact absurd heq.symm ((h name hk').1 logic hk)
      | group logic' => cases logic <;> cases logic' <;> first | rfl | exact absurd heq (by decide)
      | negation => cases logic <;> exact absurd heq (by decide)
    | negation =>
      cases k' with
      | column name => exact absurd heq.symm ((h name hk').2 hk)
      | group logic => cases logic <;> exact absurd heq (by decide)
      | negation => rfl

theorem distinctKeys_json_of_conditions {f : Filter} (h : f.Everywhere (Tidy Operand.NamesOnce))
    (hcs : (∀ c ∈ f, c.json.DistinctKeys) ↔ ∀ c ∈ f, c.Everywhere Clear) :
    f.json.DistinctKeys ↔ f.Everywhere Clear := by
  have hkeys : Entries.keys (f.map fun c => (c.key.name, c.json)) = f.keys.map Key.name := by
    simp [Entries.keys, keys]
  rw [json, fields_eq_map, Json.distinctKeys_obj_iff, hkeys,
    nodup_map_name_iff (everywhere_tidy_iff.mp h).1, everywhere_iff, ← hcs]
  simp

mutual
theorem distinctKeys_json_condition : ∀ {c : Condition}, c.Tidy Operand.NamesOnce →
    c.Everywhere (Tidy Operand.NamesOnce) → (c.json.DistinctKeys ↔ c.Everywhere Clear)
  | .column _ ops, htidy, _ => by
    rw [Condition.json]
    exact iff_of_true (OperatorMap.distinctKeys_json htidy.1 htidy.2) trivial
  | .group _ gs, _, h => by
    rw [Condition.json, Json.distinctKeys_arr_iff, jsonList_eq_map, List.forall_mem_map]
    exact distinctKeys_json_filters h
  | .negation g, _, h => by
    rw [Condition.json]
    exact distinctKeys_json_of_conditions h (distinctKeys_json_conditions (everywhere_tidy_iff.mp h).2)

theorem distinctKeys_json_conditions : ∀ {f : List Condition},
    (∀ c ∈ f, c.Tidy Operand.NamesOnce ∧ c.Everywhere (Tidy Operand.NamesOnce)) →
      ((∀ c ∈ f, c.json.DistinctKeys) ↔ ∀ c ∈ f, c.Everywhere Clear)
  | [], _ => by simp
  | c :: f, h => by
    obtain ⟨hc, hf⟩ := List.forall_mem_cons.mp h
    rw [List.forall_mem_cons, List.forall_mem_cons, distinctKeys_json_condition hc.1 hc.2,
      distinctKeys_json_conditions hf]

theorem distinctKeys_json_filters : ∀ {gs : List (List Condition)},
    (∀ g ∈ gs, Everywhere (Tidy Operand.NamesOnce) g) →
      ((∀ g ∈ gs, (json g).DistinctKeys) ↔ ∀ g ∈ gs, Everywhere Clear g)
  | [], _ => by simp
  | g :: gs, h => by
    obtain ⟨hg, hgs⟩ := List.forall_mem_cons.mp h
    rw [List.forall_mem_cons, List.forall_mem_cons, distinctKeys_json_filters hgs,
      distinctKeys_json_of_conditions hg (distinctKeys_json_conditions (everywhere_tidy_iff.mp hg).2)]
end

/-- **A filter names no key twice** exactly if no column anywhere in it is called like a group or the negation
beside it. -/
theorem distinctKeys_json_iff {f : Filter} (h : f.Everywhere (Tidy Operand.NamesOnce)) :
    f.json.DistinctKeys ↔ f.Everywhere Clear :=
  distinctKeys_json_of_conditions h (distinctKeys_json_conditions (everywhere_tidy_iff.mp h).2)

-- a reader keeps the group, and loses the column called like it
example : (json [.column "$and" [(.comparison .eq, .value .null)], .group .and [[]]]).collapse =
    json [.group .and [[]]] := by
  rfl

end Filter

end ResourceQuery
