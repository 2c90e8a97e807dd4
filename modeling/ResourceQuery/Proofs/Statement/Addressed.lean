import ResourceQuery.Proofs.Added
import ResourceQuery.Proofs.Select.Levels
import ResourceQuery.Proofs.Statement.Places
import ResourceQuery.Proofs.Statement.Rearranged
import ResourceQuery.Proofs.Statement.WellFormed

/-! # Addressing an embed

The key of a column behind the labels of an embed is to put a condition there. It leads along the tree of
labels as far as that goes, and the tree has the embeds of the last one of several with a label only. So the
condition is put where the labels lead, and nothing else changes (`gains_of_translate`): that is the embed
itself if the last embeds with these labels have it, and an embed around it otherwise, which gets a condition
on a column with points in its name. -/

namespace ResourceQuery

/-! ## Keys of columns -/

section Dotted

variable {labels : List String} {column : String} (hlabels : ∀ l ∈ labels, '.' ∉ l.toList)
  (hcolumn : '.' ∉ column.toList)

include hlabels hcolumn in
theorem groupKey?_dottedKey (hand : column ≠ "and") (hor : column ≠ "or") :
    Filters.groupKey? (dottedKey labels column) = none := by
  rw [Option.eq_none_iff_forall_ne_some]
  rintro ⟨logic, negated⟩ h
  have hkey := Filters.groupKey?_eq_some_iff.mp h
  have hlast : (Text.splitOn '.' (LogicTree.groupWord logic negated).toList).getLast? =
      some logic.word.toList := by
    cases logic <;> cases negated <;> decide
  have hword := column_of_dottedKey hlabels hcolumn hkey hlast
  cases logic
  · exact hand hword
  · exact hor hword

include hlabels hcolumn in
theorem isWindowKey_dottedKey (hwindow : column ∉ windowKeys) :
    isWindowKey (dottedKey labels column) = false := by
  rw [Bool.eq_false_iff]
  intro h
  have hlast : ∀ k ∈ windowKeys, (Text.splitOn '.' k.toList).getLast? = some k.toList := by decide
  have hkey := isWindowKey_iff.mp h
  have hword := column_of_dottedKey hlabels hcolumn rfl (hlast _ hkey)
  exact hwindow (hword ▸ hkey)

theorem isReserved_dottedKey (hne : labels ≠ []) : isReserved (dottedKey labels column) = false := by
  rw [Bool.eq_false_iff]
  intro h
  have hpoint : ∀ k ∈ reservedKeys, '.' ∉ k.toList := by decide
  exact hpoint _ (isReserved_iff.mp h) (mem_dottedKey hne)

end Dotted

/-! ## Statements -/

/-- **Statements that differ in their filters and windows only.** -/
structure Statement.SameApart (s s' : Statement) : Prop where
  kind : s'.kind = s.kind
  target : s'.target = s.target
  schema : s'.schema = s.schema
  join : s'.join = s.join
  isSome_select : s'.select.isSome = s.select.isSome
  strip : strip (s'.select.getD []) = strip (s.select.getD [])
  values : s'.values = s.values
  upsert : s'.upsert = s.upsert
  call : s'.call = s.call
  info : s'.info = s.info

/-- **A statement gains a condition at a place**, and is the same otherwise. -/
structure Statement.Gains (s s' : Statement) (path : List String) (column : String) (ops : OperatorMap) :
    Prop where
  /-- The filter there is the old one and the condition. -/
  here : ∀ note note', s.ConditionsAt path note → s'.ConditionsAt path note' → ∀ ν,
    Filter.holds ν (note'.filter.getD []) =
      (Filter.holds ν (note.filter.getD []) && OperatorMap.holds ν column ops)
  /-- The filters at all other places are the old ones. -/
  elsewhere : ∀ q note note', q ≠ path → s.ConditionsAt q note → s'.ConditionsAt q note' →
    note'.filter = note.filter
  /-- All windows are the old ones. -/
  window : ∀ q note note', s.ConditionsAt q note → s'.ConditionsAt q note' → note'.window = note.window
  /-- Nothing else is changed. -/
  apart : s.SameApart s'

namespace Parts

variable {basePath : String} {r : Request} {target : String} {p p' : Parts}

/-- The filters and windows of other parts change nothing else, if their parameters say the same under the
reserved keys. -/
theorem sameApart (hpath : p'.url.path = p.url.path) (hselection : p'.selection = p.selection)
    (hpayload : p'.payload = p.payload) (hcall : (p.target { basePath }).isCall = false)
    (hfirst : ∀ k, isReserved k = true →
      (p'.params { basePath }).first? k = (p.params { basePath }).first? k) :
    (p.statement { basePath } r).SameApart (p'.statement { basePath } { r with target }) := by
  have htarget : p'.target { basePath } = p.target { basePath } := congrArg (Target.parse · basePath) hpath
  have hkind : p'.kind { basePath } { r with target } = p.kind { basePath } r := by
    show StatementKind.ofRequest (p'.target { basePath }) _ _ = _
    rw [htarget]
    rfl
  have hnone : p.kind { basePath } r ≠ .call := by
    intro hkind
    rw [StatementKind.ofRequest_eq_call_iff.mp hkind] at hcall
    exact Bool.noConfusion hcall
  have hconflict := hfirst "on_conflict" (by decide)
  have hcolumns := hfirst "columns" (by decide)
  unfold Parts.statement
  rw [hkind, htarget, hselection, hpayload]
  constructor <;> dsimp only
  case isSome_select => rw [Bool.eq_iff_iff, Statement.isSome_select?, Statement.isSome_select?]
  case strip =>
    rw [Statement.getD_select?, Statement.getD_select?, Statement.strip_attach, Statement.strip_attach]
  case upsert =>
    refine if_congr Iff.rfl (congrArg some ?_) rfl
    show Upsert.ofRequest _ _ = Upsert.ofRequest _ _
    rw [Upsert.ofRequest, Upsert.ofRequest, hconflict]
    rfl
  case call => rw [Translator.call, Translator.call, if_neg hnone, if_neg hnone]
  case info =>
    refine congrArg Statement.info? ?_
    show Meta.ofRequest _ _ _ = Meta.ofRequest _ _ _
    rw [Meta.ofRequest, Meta.ofRequest, hcolumns]
    rfl
  case schema => rfl

theorem gains {path : List String} {column : String} {ops : OperatorMap}
    (hhere : ∀ ν, Filter.holds ν ((Filters.at? path p'.filters).getD []) =
      (Filter.holds ν ((Filters.at? path p.filters).getD []) && OperatorMap.holds ν column ops))
    (helsewhere : ∀ q, q ≠ path → Filters.at? q p'.filters = Filters.at? q p.filters)
    (hwindow : ∀ q, Windows.at? q p'.windows = Windows.at? q p.windows)
    (hapart : (p.statement { basePath } r).SameApart (p'.statement { basePath } { r with target })) :
    (p.statement { basePath } r).Gains (p'.statement { basePath } { r with target }) path column ops where
  here note note' hat hat' ν := by
    rw [filter_eq hat, filter_eq hat']
    exact hhere ν
  elsewhere q note note' hq hat hat' := by
    have heq := helsewhere q hq
    rw [filter_of_conditionsAt hat, filter_of_conditionsAt hat']
    split_ifs with hnil
    · subst hnil
      rw [show p'.filters.top = p.filters.top from Option.some.inj heq]
    · exact heq
  window q note note' hat hat' := by rw [window_eq hat, window_eq hat', hwindow]
  apart := hapart

/-- **A pair whose key is a column somewhere** is accepted by a request for a table, and is a condition
there. -/
theorem ReadFrom.exists_gains (hread : p.ReadFrom { basePath } r)
    (htable : (p.target { basePath }).isCall = false) {v : Url} {before after : List (String × String)}
    {key value name : String} {path : List String} {ops : OperatorMap} (hv : Url.parse target = .ok v)
    (hpath : v.path = p.url.path) (hbefore : p.url.pairs = before ++ after)
    (hafter : v.pairs = before ++ (key, value) :: after)
    (hplace : Filters.place? p.selection.aliases key = some (path, name))
    (hgroup : Filters.groupKey? name = none) (hwindow : isWindowKey name = false)
    (hops : FilterValue.parse value = .ok ops) :
    ∃ s', Translator.translate { basePath } { r with target } = .ok s' ∧
      (p.statement { basePath } r).Gains s' path name ops := by
  have hkey : isReserved key = false := by
    rw [Bool.eq_false_iff]
    intro hkey
    simp [Filters.place?, hkey] at hplace
  have hother : isWindowKey (p.selection.aliases.split key).2 = false := by
    rwa [Filters.split_of_place? hplace]
  have hquery : Call.fromQuery (p.target { basePath }) r.method = false := by
    rw [Call.fromQuery, htable, Bool.false_and]
  -- the parameters of the two requests
  have hparams : p.params { basePath } = .ofPairs (before ++ after) := congrArg QueryParams.ofPairs hbefore
  have hparams' : v.params = .ofPairs (before ++ (key, value) :: after) :=
    congrArg QueryParams.ofPairs hafter
  have hfirst : ∀ k, isReserved k = true → v.params.first? k = (p.params { basePath }).first? k := by
    intro k hk
    have hkk : key ≠ k := by
      rintro rfl
      rw [hk] at hkey
      exact Bool.noConfusion hkey
    rw [hparams, hparams', QueryParams.first?_added_of_ne hkk]
  have hfilters : Filters.ofParams (.ofPairs (before ++ after)) p.selection.aliases = .ok p.filters := by
    have hfilters := hread.filters
    rwa [Translator.filterParams, hquery, if_neg Bool.false_ne_true, hparams] at hfilters
  have hwindows : Windows.ofParams (.ofPairs (before ++ after)) p.selection.aliases = .ok p.windows := by
    have hwindows := hread.windows
    rwa [hparams] at hwindows
  obtain ⟨fs, hfs⟩ := Filters.exists_ofParams_added hplace hgroup hops hfilters
  obtain ⟨ws, hws⟩ := Windows.exists_ofParams_added hother value hwindows
  let p' : Parts := ⟨v, p.selection, p.payload, fs, ws⟩
  have hread' : p'.ReadFrom { basePath } { r with target } := by
    refine ⟨hv, ?_, hread.payload, ?_, ?_⟩
    · show Select.parse (v.params.first? "select") = .ok p.selection
      rw [hfirst "select" (by decide)]
      exact hread.selection
    · have htarget : p'.target { basePath } = p.target { basePath } :=
        congrArg (Target.parse · basePath) hpath
      show Filters.ofParams (Translator.filterParams (p'.target { basePath }) r.method v.params)
        p.selection.aliases = .ok fs
      rw [Translator.filterParams, htarget, hquery, if_neg Bool.false_ne_true, hparams']
      exact hfs
    · show Windows.ofParams v.params p.selection.aliases = .ok ws
      rw [hparams']
      exact hws
  have hapart : (p.statement { basePath } r).SameApart (p'.statement { basePath } { r with target }) :=
    sameApart hpath rfl rfl htable hfirst
  exact ⟨_, hread'.translate_eq,
    gains (Filters.holds_at?_added hplace hgroup hops hfilters hfs)
      (fun q hq => Filters.at?_added_of_ne hplace hfilters hfs hq) (Windows.at?_added hother hwindows hws)
      hapart⟩

end Parts

/-- **A condition for an embed is put where the labels lead**, and changes nothing else. That is the embed if
and only if the last embeds with these labels lead to it. -/
theorem gains_of_translate {basePath target : String} {r : Request} {s : Statement} {u v : Url}
    {labels : List String} {column value : String} {ops : OperatorMap} {i : Select.Item EmbedConditions}
    {before after : List (String × String)} (h : Translator.translate { basePath } r = .ok s)
    (htable : s.target.isCall = false) (hembed : Select.EmbedAt (s.select.getD []) labels i)
    (hlabels : ∀ l ∈ labels, '.' ∉ l.toList) (hcolumn : '.' ∉ column.toList)
    (hname : column ∉ windowKeys ∧ column ≠ "and" ∧ column ≠ "or")
    (hops : FilterValue.parse value = .ok ops) (hu : Url.parse r.target = .ok u)
    (hv : Url.parse target = .ok v) (hpath : v.path = u.path) (hbefore : u.pairs = before ++ after)
    (hafter : v.pairs = before ++ (dottedKey labels column, value) :: after) :
    ∃ s' reached left, Translator.translate { basePath } { r with target } = .ok s' ∧
      labels = reached ++ left ∧ s.Gains s' reached (dottedKey left column) ops ∧
      (left = [] ↔ (Select.follow? labels (Statement.strip (s.select.getD []))).isSome) := by
  obtain ⟨p, hread, rfl⟩ := Translator.translate_eq_ok.mp h
  obtain rfl : u = p.url := Except.ok.inj (hu.symm.trans hread.url)
  obtain ⟨reached, left, hreached, hsplit, hleft⟩ := p.selection.aliases.split_dottedKey hlabels hcolumn
  have hinner : ∀ l ∈ left, '.' ∉ l.toList := fun l hl => hlabels l (by simp [hreached, hl])
  -- the key is a column where it leads
  have hgroup := groupKey?_dottedKey hinner hcolumn hname.2.1 hname.2.2
  have hwindow := isWindowKey_dottedKey hinner hcolumn hname.1
  have hplace : Filters.place? p.selection.aliases (dottedKey labels column) =
      some (reached, dottedKey left column) := by
    rw [Filters.place?_of_not_window (isReserved_dottedKey hembed.path_ne_nil) (by rwa [hsplit]), hsplit]
  obtain ⟨s', hs', hgains⟩ :=
    hread.exists_gains htable hv hpath hbefore hafter hplace hgroup hwindow hops
  refine ⟨s', reached, left, hs', hreached, hgains, ?_⟩
  obtain ⟨nodes, -, -, hwalk, -⟩ := Select.level_of_parse hread.selection
  have hsome := congrArg Option.isSome (hwalk labels)
  rw [Option.isSome_map, Option.isSome_map] at hsome
  rw [hleft, hsome, Parts.strip_select]

/-- A label that comes twice: the last embed with it has the one that is addressed. -/
theorem gains_of_translate_last :
    let r : Request := ⟨.get, "/t?select=a(y),a(b())", [], [], none⟩
    let target := "/t?select=a(y),a(b())&a.b.c=eq.z"
    let ops : OperatorMap := [(.comparison .eq, .value (.str "z"))]
    ∃ s s', Translator.translate {} r = .ok s ∧ s.target.isCall = false ∧
      (∃ i, Select.EmbedAt (s.select.getD []) ["a", "b"] i) ∧ FilterValue.parse "eq.z" = .ok ops ∧
      Translator.translate {} { r with target } = .ok s' ∧ s.Gains s' ["a", "b"] "c" ops := by
  intro r target ops
  have hu : Url.parse "/t?select=a(y),a(b())" = .ok ⟨"/t", some "select=a(y),a(b())"⟩ := by rfl
  have hv : Url.parse "/t?select=a(y),a(b())&a.b.c=eq.z" =
      .ok ⟨"/t", some "select=a(y),a(b())&a.b.c=eq.z"⟩ := by rfl
  let p : Parts := ⟨⟨"/t", some "select=a(y),a(b())"⟩, .ofNodes
    [.embed "a" .plain false [.column "y"], .embed "a" .plain false [.embed "b" .plain false [.star]]], .empty,
    ⟨[], []⟩, ⟨.all, []⟩⟩
  have hread : p.ReadFrom {} r := by
    refine ⟨hu, ?_, ?_, ?_, ?_⟩
    all_goals cbv
  have htarget : Target.parse "/t" "/rest/v1" = .relation (some "t") := by rfl
  have htable : (p.statement {} r).target.isCall = false := by
    rw [(p.target_statement r htarget).2]
    rfl
  have hembed : Select.EmbedAt p.selection.items ["a", "b"] (.embed "b" [.star] () false none) :=
    .inside (List.mem_cons_of_mem _ List.mem_cons_self) (.here List.mem_cons_self)
  obtain ⟨label, inner, note, spread, join, hat⟩ := Parts.embedAt_statement "/rest/v1" r hembed
  have hops : FilterValue.parse "eq.z" = .ok ops := by cbv
  have hpairs : Url.pairs ⟨"/t", some "select=a(y),a(b())"⟩ = [("select", "a(y),a(b())")] ++ [] := by cbv
  have hpairs' : Url.pairs ⟨"/t", some "select=a(y),a(b())&a.b.c=eq.z"⟩ =
      [("select", "a(y),a(b())")] ++ [(dottedKey ["a", "b"] "c", "eq.z")] := by cbv
  obtain ⟨s', reached, left, hs', hpath, hgains, hleft⟩ :=
    gains_of_translate (r := r) hread.translate_eq htable hat (by decide) (by decide) (by decide) hops hu hv rfl hpairs hpairs'
  have hfollow : (Select.follow? ["a", "b"] (Statement.strip ((p.statement {} r).select.getD []))).isSome := by
    rw [Parts.strip_select]
    cbv
  obtain rfl := hleft.mpr hfollow
  rw [List.append_nil] at hpath
  have hname : dottedKey [] "c" = "c" := by decide
  rw [← hpath, hname] at hgains
  exact ⟨_, s', hread.translate_eq, htable, ⟨_, hat⟩, hops, hs', hgains⟩

/-- **An embed that is not addressed**: the last embed with its outer label is another one, so the condition
does not get there. -/
theorem exists_embed_not_addressed :
    ∃ (r : Request) (target : String) (u v : Url) (s s' : Statement) (ops : OperatorMap),
      Translator.translate {} r = .ok s ∧ s.target.isCall = false ∧
      (∃ i, Select.EmbedAt (s.select.getD []) ["a", "b"] i) ∧ FilterValue.parse "eq.z" = .ok ops ∧
      Url.parse r.target = .ok u ∧ Url.parse target = .ok v ∧ v.path = u.path ∧
      v.pairs = u.pairs ++ [(dottedKey ["a", "b"] "c", "eq.z")] ∧
      Translator.translate {} { r with target } = .ok s' ∧ ¬ s.Gains s' ["a", "b"] "c" ops := by
  let r : Request := ⟨.get, "/t?select=a(b()),a(y)", [], [], none⟩
  let target := "/t?select=a(b()),a(y)&a.b.c=eq.z"
  let ops : OperatorMap := [(.comparison .eq, .value (.str "z"))]
  have hu : Url.parse "/t?select=a(b()),a(y)" = .ok ⟨"/t", some "select=a(b()),a(y)"⟩ := by rfl
  have hv : Url.parse "/t?select=a(b()),a(y)&a.b.c=eq.z" =
      .ok ⟨"/t", some "select=a(b()),a(y)&a.b.c=eq.z"⟩ := by rfl
  let selection : Select.Selection := .ofNodes
    [.embed "a" .plain false [.embed "b" .plain false [.star]], .embed "a" .plain false [.column "y"]]
  let p : Parts := ⟨⟨"/t", some "select=a(b()),a(y)"⟩, selection, .empty, ⟨[], []⟩, ⟨.all, []⟩⟩
  let p' : Parts := ⟨⟨"/t", some "select=a(b()),a(y)&a.b.c=eq.z"⟩, selection, .empty,
    ⟨[], [(["a"], [.column "b.c" ops])]⟩, ⟨.all, []⟩⟩
  have hread : p.ReadFrom {} r := by
    refine ⟨hu, ?_, ?_, ?_, ?_⟩
    all_goals cbv
  have hread' : p'.ReadFrom {} { r with target } := by
    refine ⟨hv, ?_, ?_, ?_, ?_⟩
    all_goals cbv
  have htarget : Target.parse "/t" "/rest/v1" = .relation (some "t") := by rfl
  have htable : (p.statement {} r).target.isCall = false := by
    rw [(p.target_statement r htarget).2]
    rfl
  have hembed : Select.EmbedAt selection.items ["a", "b"] (.embed "b" [.star] () false none) :=
    .inside List.mem_cons_self (.here List.mem_cons_self)
  obtain ⟨_, _, note, _, _, hat⟩ := Parts.embedAt_statement (p := p) "/rest/v1" r hembed
  obtain ⟨_, _, note', _, _, hat'⟩ := Parts.embedAt_statement (p := p') "/rest/v1" { r with target } hembed
  have hpairs : Url.pairs ⟨"/t", some "select=a(b()),a(y)&a.b.c=eq.z"⟩ =
      Url.pairs ⟨"/t", some "select=a(b()),a(y)"⟩ ++ [(dottedKey ["a", "b"] "c", "eq.z")] := by cbv
  refine ⟨r, target, _, _, _, _, ops, hread.translate_eq, htable, ⟨_, hat⟩, by cbv, hu, hv, rfl, hpairs,
    hread'.translate_eq, fun hgains => ?_⟩
  -- the embed has no conditions, before and after
  have hhere := hgains.here note note' (.embed hat) (.embed hat') fun _ _ _ => false
  rw [Parts.filter_eq (.embed hat), Parts.filter_eq (.embed hat')] at hhere
  exact absurd hhere (by decide)

end ResourceQuery
