import ResourceQuery.Proofs.Filter.Inside
import ResourceQuery.Proofs.Filter.Values

/-! # Operands of the kind that their operators call for

What is made of a filter goes by its operators, and takes the kind of their operands for granted: an array
here, a range's text there. Every value that is read has an operand of the kind its operator calls for
(`takes_of_parse`), and reading, negating, merging and spilling of conditions put no operand under another
operator. So all operators of a request's filters have operands of their kind, however deep they stand
(`typed_ofParams`). -/

namespace ResourceQuery

/-- **A value that is neither an array nor an object.** -/
def Json.IsScalar (v : Json) : Prop := v.isArray = false ∧ v.isObject = false

/-- A comparison with a single value. -/
def Comparison.TakesScalar (c : Comparison) : Prop :=
  c ≠ .inList ∧ c.isRange = false ∧ c.isContainment = false

/-- An operator whose negation is written around it. -/
def Operator.Negatable (op : Operator) : Prop :=
  op ≠ .not ∧ op ≠ .notIn ∧ op ≠ .comparison .inList

/-- **The operands that an operator takes**, read from a text. -/
inductive Operator.Takes (raw : String) : Operator → Operand → Prop where
  | textSearch (kind : Option SearchKind) (config : Option String) :
      Takes raw .textSearch (.textSearch ⟨raw, kind, config⟩)
  | quantified (c : Comparison) (q : Quantifier) (items : List Json) :
      Takes raw (.quantified c q) (.value (.arr items))
  | inList (items : List Json) : Takes raw (.comparison .inList) (.value (.arr items))
  | notIn (items : List Json) : Takes raw .notIn (.value (.arr items))
  | range {c : Comparison} (hc : c.isRange = true) : Takes raw (.comparison c) (.value (.str raw))
  | containment {c : Comparison} (hc : c.isContainment = true) (v : Json) :
      Takes raw (.comparison c) (.value v)
  | scalar {c : Comparison} (hc : c.TakesScalar) {v : Json} (hv : v.IsScalar) :
      Takes raw (.comparison c) (.value v)
  | not {op : Operator} {operand : Operand} (hop : op.Negatable) (h : Takes raw op operand) :
      Takes raw .not (.negated [(op, operand)])

/-! ## What values say -/

theorem Scalar.isScalar_coerce (s : String) : (coerce s).IsScalar := by
  have number : ∀ v, number? s.toList = some v → v.IsScalar := by
    intro v h
    obtain ⟨d, -, h⟩ := Option.bind_eq_some_iff.mp h
    unfold ofDecimal at h
    split at h
    · obtain rfl := Option.some.inj h
      exact ⟨rfl, rfl⟩
    · obtain ⟨x, -, rfl⟩ := Option.map_eq_some_iff.mp h
      unfold ofBinary64
      split
      · split <;> exact ⟨rfl, rfl⟩
      · exact ⟨rfl, rfl⟩
  unfold coerce
  split_ifs
  · exact ⟨rfl, rfl⟩
  · exact ⟨rfl, rfl⟩
  · exact ⟨rfl, rfl⟩
  · cases h : number? s.toList with
    | none => exact ⟨rfl, rfl⟩
    | some v => exact number v h

namespace FilterValue

theorem exists_quantified_eq (raw : String) : ∃ items, quantified raw = .arr items := by
  unfold quantified
  split
  · exact ⟨_, rfl⟩
  · exact ⟨_, rfl⟩

theorem takes_operand (token : OperatorToken) (raw : String) :
    token.operator.Takes raw (operand token raw) := by
  cases token with
  | textSearch kind config => exact .textSearch kind config
  | quantified c q =>
    obtain ⟨items, hitems⟩ := exists_quantified_eq raw
    have htakes : Operator.Takes raw (.quantified c q) (.value (.arr items)) := .quantified c q items
    rw [← hitems] at htakes
    exact htakes
  | comparison c =>
    unfold operand OperatorToken.operator
    dsimp only
    split_ifs with hin hcontainment hrange
    · subst hin
      exact .inList _
    · exact .containment hcontainment _
    · exact .range hrange
    · have hscalar : c.TakesScalar :=
        ⟨hin, Bool.eq_false_iff.mpr hrange, Bool.eq_false_iff.mpr hcontainment⟩
      exact .scalar hscalar (Scalar.isScalar_coerce raw)

theorem negatable_operator {token : OperatorToken} (h : token ≠ .comparison .inList) :
    token.operator.Negatable := by
  cases token with
  | comparison c =>
    have hc : c ≠ .inList := fun hc => h (congrArg OperatorToken.comparison hc)
    simp [OperatorToken.operator, Operator.Negatable, hc]
  | quantified c q => simp [OperatorToken.operator, Operator.Negatable]
  | textSearch kind config => simp [OperatorToken.operator, Operator.Negatable]

/-- **A value says one operator, with an operand of its kind.** -/
theorem takes_of_parse {value : String} {ops : OperatorMap} (h : parse value = .ok ops) :
    ∃ op operand, ops = .single op operand ∧ op.Takes (rawText value) operand := by
  obtain ⟨token, -, rfl⟩ := parse_eq_ok.mp h
  have htakes := takes_operand token (rawText value)
  split_ifs
  · unfold negated
    split_ifs with hin
    · exact ⟨_, _, rfl, .notIn _⟩
    · exact ⟨_, _, rfl, .not (negatable_operator hin) htakes⟩
  · exact ⟨_, _, rfl, htakes⟩

end FilterValue

/-! ## Filters -/

/-- **What some value says**, with an operand of the operator's kind. -/
def Operator.Typed (op : Operator) (operand : Operand) : Prop :=
  ∃ value, FilterValue.parse value = .ok (.single op operand) ∧ op.Takes (FilterValue.rawText value) operand

/-- Operators of a column, none of them twice, with operands of their kinds. -/
def OperatorMap.Typed (ops : OperatorMap) : Prop :=
  (Entries.keys ops).Nodup ∧ ∀ e ∈ ops, e.1.Typed e.2

/-- **A filter with operands of their operators' kinds**, in its groups and negations as well. -/
def Filter.Typed (f : Filter) : Prop := f.Everywhere (Tidy Operator.Typed)

theorem FilterValue.typed_of_parse {value : String} {ops : OperatorMap} (h : parse value = .ok ops) :
    ops.Typed := by
  obtain ⟨op, operand, rfl, htakes⟩ := takes_of_parse h
  refine ⟨by simp [OperatorMap.single], fun e he => ?_⟩
  obtain rfl := List.mem_singleton.mp he
  exact ⟨value, h, htakes⟩

theorem FilterValue.say_typed : Say Operator.Typed := by
  intro cs ops h
  have hparse : parse (String.ofList cs) = .ok ops := by rwa [parse, String.toList_ofList]
  exact (typed_of_parse hparse).2

/-- **All operators of a request's filters have operands of their kinds**, at every depth: each value says
one such operator, and what is added to a filter keeps its operators so. -/
theorem Filters.typed_ofParams {params : QueryParams} {tree : AliasTree} {fs : Filters}
    (h : ofParams params tree = .ok fs) :
    (∀ path f, at? path fs = some f → f.Typed) ∧
    (∀ value ops, FilterValue.parse value = .ok ops →
      ∃ op operand, ops = .single op operand ∧ op.Takes (FilterValue.rawText value) operand) ∧
    ∀ f : Filter, f.Typed →
      (∀ name ops, OperatorMap.Typed ops → (f.addColumn name ops).Typed) ∧
      (∀ logic gs, (∀ g ∈ gs, Filter.Typed g) → (f.addGroup logic gs).Typed) ∧
      ∀ g : Filter, g.Typed → (f.addNegation g).Typed := by
  refine ⟨fun path f hat => ?_, fun value ops => FilterValue.takes_of_parse, fun f hf => ⟨?_, ?_, ?_⟩⟩
  · exact (madeOf_ofParams FilterValue.say_typed h path f hat).everywhere_tidy
  · rintro name ops ⟨hn, htyped⟩
    exact hf.addColumn name hn htyped
  · intro logic gs hgs
    exact hf.addGroup logic hgs
  · intro g hg
    exact hf.addNegation hg

/-- Operators of every kind: a list that is negated, a range, a text search and an object in a group, and a
repeated operator that goes to a group. -/
theorem Filters.typed_ofParams_kinds :
    let params : QueryParams := .ofPairs [("a", "not.in.(x)"), ("a", "not.gt.y"), ("t.b", "adj.[1,2)"),
      ("not.or", "(c.not.fts(en).d,and(e.eq(any).\x7bf\x7d,g.cs.\x7b\x7d))"), ("a", "not.lt.z")]
    let tree : AliasTree := .node [("t", .empty)]
    ∃ fs, ofParams params tree = .ok fs ∧ fs.top.Typed ∧
      ∃ f, Entries.get? ["t"] fs.embedded = some f ∧ Filter.Typed f ∧ f = [.column "b"
        [(.comparison .rangeAdjacent, .value (.str "[1,2)"))]] := by
  intro params tree
  have h : ofParams params tree = .ok ⟨[.column "a" [(.notIn, .value (.arr [.str "x"])),
        (.not, .negated [(.comparison .gt, .value (.str "y"))])],
      .group .and [[.column "a" [(.not, .negated [(.comparison .lt, .value (.str "z"))])]]],
      .negation [.group .or [
        [.column "c" [(.not, .negated [(.textSearch, .textSearch ⟨"d", none, some "en"⟩)])]],
        [.group .and [[.column "e" [(.quantified .eq .any, .value (.arr [.str "f"]))]],
          [.column "g" [(.comparison .contains, .value (.obj []))]]]]]]],
      [(["t"], [.column "b" [(.comparison .rangeAdjacent, .value (.str "[1,2)"))]])]⟩ := by
    cbv
  have htyped := (typed_ofParams h).1
  exact ⟨_, h, htyped [] _ rfl, _, rfl, htyped ["t"] _ rfl, rfl⟩

end ResourceQuery
