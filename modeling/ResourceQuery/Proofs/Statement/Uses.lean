import ResourceQuery.Proofs.Statement.QueryCall

/-! # What a call uses its parameters for

Arguments, filters and windows are read from the same parameters, each by a test of its own: an argument by
the look of the first value, a window by the key, a filter by both. So every first value is used
(`uses_of_translate`), and no more than once but for a window key of an embed whose value does not look like
a filter, which is an argument as well. -/

namespace ResourceQuery

/-- **What the first value of a parameter is used for.** -/
inductive ParamUse where
  | argument
  | condition
  | window
deriving DecidableEq, Repr

/-- **A statement uses the value of a parameter**: it has the argument, or what the key says with the values
that are left to the filters holds of the rows at its place, or the window there is as the value says. -/
def Statement.Uses (s : Statement) (params : QueryParams) (tree : AliasTree) (key value : String) :
    ParamUse → Prop
  | .argument => ∃ args, s.call.args = some (.obj args) ∧ Entries.get? key args = some (Scalar.coerce value)
  | .condition => ∃ path name values c, Filters.place? tree key = some (path, name) ∧
      (Call.filterParams params).get? key = some (value :: values) ∧
      Clause.read name (value :: values) = .ok c ∧ (∃ note, s.ConditionsAt path note) ∧
      ∀ note, s.ConditionsAt path note → ∀ ν, Filter.holds ν (note.filter.getD []) = true →
        c.holds ν = true
  | .window => ∃ path name, tree.split key = (path, name) ∧ path ≠ [] ∧ isWindowKey name = true ∧
      Window.Readable name value ∧ (∃ note, s.ConditionsAt path note) ∧
      ∀ note, s.ConditionsAt path note → note.window.set name value = note.window

theorem path_ne_nil_of_isWindowKey {tree : AliasTree} {key : String} (hkey : isReserved key = false)
    (hwindow : isWindowKey (tree.split key).2 = true) : (tree.split key).1 ≠ [] := by
  intro hnil
  have hwhole := tree.joinWith_split key
  rw [hnil, List.map_nil, List.nil_append, Text.joinWith, String.toList_inj] at hwhole
  rw [hwhole] at hwindow
  have hreserved : ∀ k ∈ windowKeys, isReserved k = true := by decide
  rw [hreserved key (isWindowKey_iff.mp hwindow)] at hkey
  exact Bool.noConfusion hkey

namespace Parts.ReadFrom

variable {basePath : String} {r : Request} {p : Parts} (hread : p.ReadFrom { basePath } r)
  (hcall : (p.target { basePath }).isCall = true) (hmethod : r.method ≠ .post)

variable {key value : String} (hkey : isReserved key = false)
  (hfirst : (p.params { basePath }).first? key = some value)

include hcall hmethod hkey hfirst in
theorem uses_argument_iff :
    (p.statement { basePath } r).Uses (p.params { basePath }) p.selection.aliases key value .argument ↔
      looksLikeFilter value = false := by
  have hget := Call.get?_arguments hkey hfirst
  show (∃ args, _ = some (Json.obj args) ∧ _) ↔ _
  rw [call_eq hcall hmethod]
  constructor
  · rintro ⟨args, hargs, hvalue⟩
    rw [(Call.args_ofParams.mp hargs).1, hvalue] at hget
    cases hlooks : looksLikeFilter value with
    | false => rfl
    | true => simp [hlooks] at hget
  · intro hlooks
    rw [hlooks, if_neg Bool.false_ne_true] at hget
    refine ⟨_, Call.args_ofParams.mpr ⟨rfl, ?_⟩, hget⟩
    intro hnil
    simp [hnil] at hget

include hread hcall hmethod hkey hfirst in
/-- **A condition is what looks like a filter**, unless its key orders or cuts the rows of an embed. -/
theorem uses_condition_iff :
    (p.statement { basePath } r).Uses (p.params { basePath }) p.selection.aliases key value .condition ↔
      looksLikeFilter value = true ∧ isWindowKey (p.selection.aliases.split key).2 = false := by
  constructor
  · rintro ⟨path, name, values, c, hplace, hget, -, -, -⟩
    refine ⟨(Call.get?_filterParams hkey hfirst).mp ⟨values, hget⟩, ?_⟩
    by_contra hwindow
    rw [Bool.not_eq_false] at hwindow
    have hpath := path_ne_nil_of_isWindowKey hkey hwindow
    simp [Filters.place?, hkey, hpath, hwindow] at hplace
  · rintro ⟨hlooks, hwindow⟩
    obtain ⟨values, hget⟩ := (Call.get?_filterParams hkey hfirst).mpr hlooks
    have hplace := Filters.place?_of_not_window hkey hwindow
    obtain ⟨c, hc, hholds⟩ :=
      Filters.exists_clause_of_place? (hread.filters_of_call hcall hmethod) (Entries.mem_of_get? hget) hplace
    refine ⟨_, _, values, c, hplace, hget, hc, hread.exists_conditionsAt key, fun note hat ν hν => ?_⟩
    rw [filter_eq hat] at hν
    exact hholds ν hν

include hread hkey hfirst in
theorem uses_window_iff :
    (p.statement { basePath } r).Uses (p.params { basePath }) p.selection.aliases key value .window ↔
      isWindowKey (p.selection.aliases.split key).2 = true := by
  constructor
  · rintro ⟨path, name, hsplit, -, hname, -⟩
    rwa [hsplit]
  · intro hwindow
    obtain ⟨values, hget⟩ := QueryParams.first?_eq_some.mp hfirst
    have he := Entries.mem_of_get? hget
    have hreadable := (Windows.exists_ofParams_iff _ _).mp ⟨_, hread.windows⟩ _ he
    have hset := Windows.set_at?_ofParams hread.windows he hwindow
    refine ⟨_, _, rfl, path_ne_nil_of_isWindowKey hkey hwindow, hwindow, hreadable,
      hread.exists_conditionsAt key, fun note hat => ?_⟩
    rw [window_eq hat]
    exact hset

end Parts.ReadFrom

/-- **A call uses every first value**, for one thing only but for a window key of an embed whose value does
not look like a filter: that is an argument too. -/
theorem uses_of_translate {basePath : String} {r : Request} {s : Statement}
    (h : Translator.translate { basePath } r = .ok s) (hcall : s.target.isCall = true)
    (hmethod : r.method ≠ .post) :
    ∃ p : Parts, p.ReadFrom { basePath } r ∧ ∀ key value, isReserved key = false →
      (p.params { basePath }).first? key = some value →
      let used := s.Uses (p.params { basePath }) p.selection.aliases key value
      let twice := isWindowKey (p.selection.aliases.split key).2 = true ∧ looksLikeFilter value = false
      (¬ twice → ∃! use, used use) ∧ (twice → ∀ use, used use ↔ use ≠ .condition) := by
  obtain ⟨p, hread, rfl⟩ := Translator.translate_eq_ok.mp h
  refine ⟨p, hread, fun key value hkey hfirst => ?_⟩
  have hargument := Parts.ReadFrom.uses_argument_iff hcall hmethod hkey hfirst
  have hcondition := hread.uses_condition_iff hcall hmethod hkey hfirst
  have hwindow := hread.uses_window_iff hkey hfirst
  dsimp only
  generalize (p.statement { basePath } r).Uses (p.params { basePath }) p.selection.aliases key value = used at *
  have unique : ∀ only : ParamUse, (∀ use, used use ↔ use = only) → ∃! use, used use :=
    fun only honly => ⟨only, (honly only).mpr rfl, fun use => (honly use).mp⟩
  constructor
  · intro htwice
    cases hname : isWindowKey (p.selection.aliases.split key).2 with
    | true =>
      have hlooks : looksLikeFilter value = true := by
        by_contra hlooks
        exact htwice ⟨hname, Bool.eq_false_iff.mpr hlooks⟩
      refine unique .window fun use => ?_
      cases use <;> simp [hargument, hcondition, hwindow, hname, hlooks]
    | false =>
      cases hlooks : looksLikeFilter value with
      | true =>
        refine unique .condition fun use => ?_
        cases use <;> simp [hargument, hcondition, hwindow, hname, hlooks]
      | false =>
        refine unique .argument fun use => ?_
        cases use <;> simp [hargument, hcondition, hwindow, hname, hlooks]
  · rintro ⟨hname, hlooks⟩ use
    cases use <;> simp [hargument, hcondition, hwindow, hname, hlooks]

/-- An argument, a condition on the request and one on an embed, and an embed's order, which is an argument
too. -/
theorem uses_of_translate_mixed :
    let r : Request := ⟨.get, "/rpc/f?select=t()&q=u&b=eq.y&t.c=gt.z&t.order=x", [], [], none⟩
    ∃ s, Translator.translate {} r = .ok s ∧ s.target.isCall = true ∧ r.method ≠ .post ∧
      ∃ p : Parts, p.ReadFrom {} r ∧ ∀ key value, isReserved key = false →
        (p.params {}).first? key = some value →
        let used := s.Uses (p.params {}) p.selection.aliases key value
        let twice := isWindowKey (p.selection.aliases.split key).2 = true ∧ looksLikeFilter value = false
        (¬ twice → ∃! use, used use) ∧ (twice → ∀ use, used use ↔ use ≠ .condition) := by
  intro r
  let p : Parts := ⟨⟨"/rpc/f", some "select=t()&q=u&b=eq.y&t.c=gt.z&t.order=x"⟩,
    .ofNodes [.embed "t" .plain false [.star]], .empty,
    ⟨[.column "b" [(.comparison .eq, .value (.str "y"))]],
      [(["t"], [.column "c" [(.comparison .gt, .value (.str "z"))]])]⟩,
    ⟨.all, [(["t"], ⟨some [⟨"x", none, none⟩], none, none⟩)]⟩⟩
  have hurl : Url.parse "/rpc/f?select=t()&q=u&b=eq.y&t.c=gt.z&t.order=x" =
      .ok ⟨"/rpc/f", some "select=t()&q=u&b=eq.y&t.c=gt.z&t.order=x"⟩ := by rfl
  have htarget : Target.parse "/rpc/f" "/rest/v1" = .function "f" := by rfl
  have hread : p.ReadFrom {} r := by
    refine ⟨hurl, ?_, ?_, ?_, ?_⟩
    all_goals cbv
  have hcall : (p.statement {} r).target.isCall = true := by
    rw [(p.target_statement r htarget).2]
    rfl
  exact ⟨_, hread.translate_eq, hcall, by decide, uses_of_translate hread.translate_eq hcall (by decide)⟩

/-- **The limit of an embed is an argument as well.** -/
theorem exists_used_twice :
    ∃ (r : Request) (p : Parts), p.ReadFrom {} r ∧
      Translator.translate {} r = .ok (p.statement {} r) ∧ (p.statement {} r).target.isCall = true ∧
      r.method ≠ .post ∧ ∃ key value, isReserved key = false ∧ (p.params {}).first? key = some value ∧
        ¬ ∃! use, (p.statement {} r).Uses (p.params {}) p.selection.aliases key value use := by
  let r : Request := ⟨.get, "/rpc/f?select=tags()&tags.limit=5", [], [], none⟩
  let p : Parts := ⟨⟨"/rpc/f", some "select=tags()&tags.limit=5"⟩,
    .ofNodes [.embed "tags" .plain false [.star]], .empty, ⟨[], []⟩,
    ⟨.all, [(["tags"], ⟨none, some 5, none⟩)]⟩⟩
  have hurl : Url.parse "/rpc/f?select=tags()&tags.limit=5" =
      .ok ⟨"/rpc/f", some "select=tags()&tags.limit=5"⟩ := by rfl
  have htarget : Target.parse "/rpc/f" "/rest/v1" = .function "f" := by rfl
  have hread : p.ReadFrom {} r := by
    refine ⟨hurl, ?_, ?_, ?_, ?_⟩
    all_goals cbv
  obtain ⟨hfunction, hfunction'⟩ := p.target_statement r htarget
  have hcall : (p.target {}).isCall = true := by
    rw [hfunction]
    rfl
  have hmethod : r.method ≠ .post := by decide
  have hkey : isReserved "tags.limit" = false := by decide
  have hfirst : (p.params {}).first? "tags.limit" = some "5" := by cbv
  have hargument := (Parts.ReadFrom.uses_argument_iff hcall hmethod hkey hfirst).mpr (by cbv)
  have hwindow := (hread.uses_window_iff hkey hfirst).mpr (by cbv)
  have htarget : (p.statement {} r).target.isCall = true := by
    rw [hfunction']
    rfl
  refine ⟨r, p, hread, hread.translate_eq, htarget, hmethod, "tags.limit", "5", hkey, hfirst,
    fun hunique => ?_⟩
  exact absurd (hunique.unique hargument hwindow) (by simp)

end ResourceQuery
