import Mathlib
import ResourceQuery.Proofs.Filter.Presence
import ResourceQuery.Proofs.Rearranged
import ResourceQuery.Proofs.Statement.Attached
import ResourceQuery.Proofs.Windows

/-! # The order of parameters does not matter

Requests whose pairs come in another order, those of a key in theirs, are accepted together, and make
statements that agree (`alike_translate`). Only the form of a filter tells the order, not its meaning:
which of two negations is the negation of a filter and which one goes to its `and` group, and the order of
conditions. -/

namespace ResourceQuery

open Refusal (Alike)

theorem nil_iff_of_perm {α : Type} {as bs : List α} (h : as.Perm bs) : as = [] ↔ bs = [] := by
  rw [← List.length_eq_zero_iff, h.length_eq, List.length_eq_zero_iff]

theorem rel_of_isSome_iff {α β : Type} {R : α → β → Prop} {o : Option α} {o' : Option β}
    (h : o.isSome ↔ o'.isSome) (hR : ∀ a b, o = some a → o' = some b → R a b) : Option.Rel R o o' := by
  cases o with
  | none =>
    cases o' with
    | none => exact .none
    | some b => simp at h
  | some a =>
    cases o' with
    | none => simp at h
    | some b => exact .some (hR a b rfl rfl)

/-! ## Filters -/

/-- **The same meaning.** -/
def Filter.Equivalent (f g : Filter) : Prop := ∀ ν, Filter.holds ν f = Filter.holds ν g

namespace Filters

/-- **Filters agree**: those at a place are there together, have conditions together, and mean the same. -/
structure Agree (fs gs : Filters) : Prop where
  equivalent : ∀ path, Option.Rel Filter.Equivalent (at? path fs) (at? path gs)
  nil_iff : fs.top = [] ↔ gs.top = []

/-- **The filters at a place mean the same**, in whatever order the keys that lead there come. -/
theorem rel_at?_ofParams {p q : QueryParams} (h : p.entries.Perm q.entries) {tree : AliasTree}
    {fs gs : Filters} (hfs : ofParams p tree = .ok fs) (hgs : ofParams q tree = .ok gs)
    (path : List String) : Option.Rel Filter.Equivalent (at? path fs) (at? path gs) := by
  have hrouted : (routed tree path p.entries).Perm (routed tree path q.entries) := h.filterMap _
  obtain ⟨⟨cs, hcs, hmeans⟩, hsome⟩ := means_entries hfs path
  obtain ⟨⟨ds, hds, hmeans'⟩, hsome'⟩ := means_entries hgs path
  have hperm : cs.Perm ds := by
    obtain ⟨ds', hds', hperm⟩ := Refusal.mapM_perm hrouted hcs
    rw [hds] at hds'
    rwa [Except.ok.inj hds']
  refine rel_of_isSome_iff ?_ fun f g hf hg ν => ?_
  · rw [hsome, hsome', ne_eq, ne_eq, nil_iff_of_perm hrouted]
  · rw [hf] at hmeans
    rw [hg] at hmeans'
    exact (hmeans.holds ν).trans ((hperm.all_eq).trans (hmeans'.holds ν).symm)

theorem top_eq_nil_iff {p q : QueryParams} (h : p.entries.Perm q.entries) {tree : AliasTree}
    {fs gs : Filters} (hfs : ofParams p tree = .ok fs) (hgs : ofParams q tree = .ok gs) :
    fs.top = [] ↔ gs.top = [] := by
  have hnil := nil_iff_of_perm (h.filterMap _ : (routed tree [] p.entries).Perm (routed tree [] q.entries))
  exact not_iff_not.mp ((at?_ne_nil_iff hfs []).trans
    ((not_congr hnil).trans (at?_ne_nil_iff hgs []).symm))

/-- **Filters do not depend on the order**, but for their form. -/
theorem alike_ofParams {p q : QueryParams} (h : p.entries.Perm q.entries) (tree : AliasTree) :
    Alike Agree (fun _ _ => True) (ofParams p tree) (ofParams q tree) := by
  refine .of_exists_iff ?_ fun fs gs hfs hgs => ⟨rel_at?_ofParams h hfs hgs, top_eq_nil_iff h hfs hgs⟩
  rw [exists_ofParams_iff, exists_ofParams_iff]
  simp only [h.mem_iff]

end Filters

/-! ## Windows -/

/-- **Windows agree**: those at a place are there together, and are the same. -/
def Windows.Agree (ws vs : Windows) : Prop := ∀ path, at? path ws = at? path vs

theorem Windows.alike_ofParams {p q : QueryParams} (h : p.entries.Perm q.entries) (tree : AliasTree) :
    Alike Agree (fun _ _ => True) (ofParams p tree) (ofParams q tree) := by
  refine .of_exists_iff ?_ fun ws vs hws hvs path => ?_
  · rw [exists_ofParams_iff, exists_ofParams_iff]
    simp only [h.mem_iff]
  · have hrouted : (routed tree path p.entries).Perm (routed tree path q.entries) := h.filterMap _
    have hn := nodup_routed tree path p.nodup_keys
    rw [at?_ofParams hws, at?_ofParams hvs]
    simp only [nil_iff_of_perm hrouted, Window.ofEntries, Entries.get?_perm hn hrouted]

/-! ## Calls -/

/-- **The same value**, but for the order of an object's fields. -/
def Json.SameFields : Json → Json → Prop
  | .obj fields, .obj fields' => fields.Perm fields'
  | v, w => v = w

theorem Json.SameFields.refl (v : Json) : v.SameFields v := by
  cases v with
  | obj fields => exact List.Perm.refl fields
  | _ => rfl

/-- **Calls agree**: the same arguments are given in the same way. -/
structure Call.Agree (c d : Call) : Prop where
  args : Option.Rel Json.SameFields c.args d.args
  method : c.method = d.method
  style : c.style = d.style
  source : c.source = d.source

theorem Call.Agree.refl (c : Call) : c.Agree c := by
  refine ⟨?_, rfl, rfl, rfl⟩
  cases c.args with
  | none => exact .none
  | some v => exact .some (.refl v)

theorem Call.agree_ofParams {p q : QueryParams} (h : p.entries.Perm q.entries) :
    (ofParams p).Agree (ofParams q) := by
  have hargs : (arguments p).Perm (arguments q) := h.filterMap _
  refine ⟨?_, rfl, rfl, rfl⟩
  unfold ofParams
  generalize arguments p = as at hargs
  generalize arguments q = bs at hargs
  cases as with
  | nil =>
    rw [(nil_iff_of_perm hargs).mp rfl]
    exact .none
  | cons a as =>
    cases bs with
    | nil => simp at hargs
    | cons b bs => exact .some hargs

theorem Call.agree_ofRequest {p q : QueryParams} (h : p.entries.Perm q.entries) (target : Target)
    (method : Method) (payload : Payload) :
    (ofRequest target method p payload).Agree (ofRequest target method q payload) := by
  unfold ofRequest
  split
  · exact .refl _
  · split
    · exact .refl _
    · exact agree_ofParams h

/-! ## What is read from one key -/

theorem Upsert.ofRequest_perm {p q : QueryParams} (h : p.entries.Perm q.entries)
    (headers : RequestHeaders) : ofRequest p headers = ofRequest q headers := by
  rw [ofRequest, QueryParams.first?_perm h, ofRequest]

theorem Meta.ofRequest_perm {p q : QueryParams} (h : p.entries.Perm q.entries)
    (headers : RequestHeaders) (method : Method) :
    ofRequest headers p method = ofRequest headers q method := by
  rw [ofRequest, QueryParams.first?_perm h, ofRequest]

namespace Translator

variable {basePath : String} {p q : QueryParams} {kind kind' : StatementKind}

theorem filterParams_perm (h : p.entries.Perm q.entries) {target target' : Target}
    (htarget : target = target') (method : Method) :
    (filterParams target method p).entries.Perm (filterParams target' method q).entries := by
  subst htarget
  unfold filterParams
  split
  · exact QueryParams.perm_entries_filter h _
  · exact h

theorem upsert?_perm (h : p.entries.Perm q.entries) (hkind : kind = kind')
    {headers headers' : RequestHeaders} (hheaders : headers = headers') :
    upsert? { basePath } kind p headers = upsert? { basePath } kind' q headers' := by
  subst hkind hheaders
  unfold upsert?
  exact if_congr Iff.rfl (congrArg some (Upsert.ofRequest_perm h headers)) rfl

theorem agree_call (h : p.entries.Perm q.entries) (hkind : kind = kind') {target target' : Target}
    (htarget : target = target') {method method' : Method} (hmethod : method = method')
    {payload payload' : Payload} (hpayload : payload = payload') :
    (call { basePath } kind target method p payload).Agree
      (call { basePath } kind' target' method' q payload') := by
  subst hkind htarget hmethod hpayload
  unfold call
  split
  · exact Call.agree_ofRequest h target method payload
  · exact .refl _

end Translator

/-! ## Select lists -/

/-- **Entries that differ in the notes of their embeds only**, and those are related. -/
inductive Select.Item.Related {α β : Type} (R : α → β → Prop) : Select.Item α → Select.Item β → Prop where
  | star : Related R .star .star
  | column (name : String) : Related R (.column name) (.column name)
  | field (label : String) (f : Select.Field) : Related R (.field label f) (.field label f)
  | embed {label : String} {items : List (Select.Item α)} {items' : List (Select.Item β)} {a : α} {b : β}
      {spread : Bool} {join : Option Select.JoinMap} (hitems : List.Forall₂ (Related R) items items')
      (hnote : R a b) : Related R (.embed label items a spread join) (.embed label items' b spread join)

/-- **The conditions of an embed agree.** -/
structure EmbedConditions.Agree (c d : EmbedConditions) : Prop where
  filter : Option.Rel Filter.Equivalent c.filter d.filter
  window : c.window = d.window

namespace Statement

mutual
theorem related_attachItem {R : EmbedConditions → EmbedConditions → Prop}
    {at_ at_' : List String → EmbedConditions} (h : ∀ path, path ≠ [] → R (at_ path) (at_' path)) :
    ∀ (path : List String) (i : Select.Item Unit),
      (attachItem at_ path i).Related R (attachItem at_' path i)
  | _, .star => by
    rw [attachItem, attachItem]
    exact .star
  | _, .column name => by
    rw [attachItem, attachItem]
    exact .column name
  | _, .field label f => by
    rw [attachItem, attachItem]
    exact .field label f
  | path, .embed label items _ _ _ => by
    rw [attachItem, attachItem]
    exact .embed (related_attach h (path ++ [label]) items) (h _ (by simp))

theorem related_attach {R : EmbedConditions → EmbedConditions → Prop}
    {at_ at_' : List String → EmbedConditions} (h : ∀ path, path ≠ [] → R (at_ path) (at_' path)) :
    ∀ (path : List String) (items : List (Select.Item Unit)),
      List.Forall₂ (Select.Item.Related R) (attach at_ path items) (attach at_' path items)
  | _, [] => by
    rw [attach, attach]
    exact .nil
  | path, i :: is => by
    rw [attach, attach]
    exact .cons (related_attachItem h path i) (related_attach h path is)
end

/-! ## Statements -/

/-- **Statements agree**: they are the same but for the order of arguments and the form of filters. -/
structure Agree (s t : Statement) : Prop where
  kind : s.kind = t.kind
  target : s.target = t.target
  schema : s.schema = t.schema
  join : s.join = t.join
  select : Option.Rel (List.Forall₂ (Select.Item.Related EmbedConditions.Agree)) s.select t.select
  filter : Option.Rel Filter.Equivalent s.filter t.filter
  values : s.values = t.values
  window : s.window = t.window
  upsert : s.upsert = t.upsert
  call : s.call.Agree t.call
  info : s.info = t.info

theorem agree_select? {fs gs : Filters} (hf : fs.Agree gs) {ws vs : Windows}
    (hw : ws.Agree vs) (items : List (Select.Item Unit)) :
    Option.Rel (List.Forall₂ (Select.Item.Related EmbedConditions.Agree)) (select? fs ws items)
      (select? gs vs items) := by
  cases items with
  | nil => exact .none
  | cons i is =>
    refine .some (related_attach (fun path hpath => ⟨?_, ?_⟩) [] (i :: is))
    · have hat := hf.equivalent path
      rwa [Filters.at?, Filters.at?, if_neg hpath, if_neg hpath] at hat
    · have hat := hw path
      rw [Windows.at?, Windows.at?, if_neg hpath, if_neg hpath] at hat
      exact congrArg (Option.getD · .all) hat

theorem isSome_filter? (f : Filter) : (filter? f).isSome ↔ f ≠ [] := by cases f <;> simp [filter?]

theorem agree_filter? {fs gs : Filters} (h : fs.Agree gs) :
    Option.Rel Filter.Equivalent (filter? fs.top) (filter? gs.top) := by
  have htop : Option.Rel Filter.Equivalent (some fs.top) (some gs.top) := h.equivalent []
  cases htop with
  | some hequiv =>
    refine rel_of_isSome_iff ?_ fun f g hf hg => ?_
    · rw [isSome_filter?, isSome_filter?, ne_eq, ne_eq, h.nil_iff]
    · rwa [← getD_filter? fs.top, ← getD_filter? gs.top, hf, hg] at hequiv

end Statement

/-- **Parts that agree make statements that agree.** -/
theorem Parts.agree_statement {basePath : String} {r r' : Request} (p q : Parts)
    (hmethod : r.method = r'.method)
    (hheaders : RequestHeaders.ofRequest r r.method = RequestHeaders.ofRequest r' r'.method)
    (hpath : p.url.path = q.url.path)
    (hentries : (p.params { basePath }).entries.Perm (q.params { basePath }).entries)
    (hselection : p.selection = q.selection) (hpayload : p.payload = q.payload)
    (hfilters : p.filters.Agree q.filters) (hwindows : p.windows.Agree q.windows) :
    (p.statement { basePath } r).Agree (q.statement { basePath } r') := by
  have htarget : p.target { basePath } = q.target { basePath } := congrArg (Target.parse · basePath) hpath
  have hkind : p.kind { basePath } r = q.kind { basePath } r' := by
    show StatementKind.ofRequest (p.target { basePath }) r.method (.ofRequest r r.method) =
      StatementKind.ofRequest (q.target { basePath }) r'.method (.ofRequest r' r'.method)
    rw [htarget, hheaders, hmethod]
  unfold Parts.statement
  constructor <;> dsimp only
  case kind => exact hkind
  case target => exact htarget
  case schema => exact congrArg RequestHeaders.schema hheaders
  case join => rw [hselection]
  case select =>
    rw [hselection]
    exact Statement.agree_select? hfilters hwindows q.selection.items
  case filter => exact Statement.agree_filter? hfilters
  case values => rw [hkind, hpayload]
  case window => exact Option.some.inj (hwindows [])
  case upsert => exact Translator.upsert?_perm hentries hkind hheaders
  case call => exact Translator.agree_call hentries hkind htarget hmethod hpayload
  case info =>
    refine congrArg Statement.info? ?_
    show Meta.ofRequest (.ofRequest r r.method) (p.params { basePath }) r.method =
      Meta.ofRequest (.ofRequest r' r'.method) (q.params { basePath }) r'.method
    rw [hheaders, Meta.ofRequest_perm hentries, hmethod]

/-! ## Requests -/

namespace TranslateError

/-- The parts of a request that may be refused. -/
inductive Stage where
  | url | select | payload | filter | window
deriving DecidableEq, Repr

/-- The part that an error is about. -/
def stage : TranslateError → Stage
  | url _ _ => .url
  | select _ => .select
  | payload _ => .payload
  | filter _ => .filter
  | window _ => .window

/-- Errors about the same part. -/
def SameStage (e e' : TranslateError) : Prop := e.stage = e'.stage

end TranslateError

open TranslateError (SameStage)

/-- The pairs in the query of a URL. -/
def Url.pairs (u : Url) : List (String × String) := (u.query.map queryPairs).getD []

/-- **The order of parameters does not matter.** Two requests whose pairs are the same but for the order of
different keys are both accepted, and make statements that agree, or are both refused for the same part. -/
theorem alike_translate {basePath : String} {r : Request} {target : String} {u v : Url}
    (hu : Url.parse r.target = .ok u) (hv : Url.parse target = .ok v) (hpath : u.path = v.path)
    (h : QueryParams.Rearranged u.pairs v.pairs) :
    Alike Statement.Agree SameStage (Translator.translate { basePath } r)
      (Translator.translate { basePath } { r with target }) := by
  have hentries : u.params.entries.Perm v.params.entries := QueryParams.perm_entries_of_rearranged h
  have hfilter := Translator.filterParams_perm hentries (congrArg (Target.parse · basePath) hpath) r.method
  have hurl : Alike (fun a b => u = a ∧ v = b) SameStage ((Url.parse r.target).mapError (.url r.target))
      ((Url.parse target).mapError (.url target)) := by
    rw [hu, hv]
    exact .ok ⟨rfl, rfl⟩
  have hselect : Alike Eq SameStage ((Select.parse (u.params.first? "select")).mapError .select)
      ((Select.parse (v.params.first? "select")).mapError .select) :=
    .of_eq (by rw [QueryParams.first?_perm hentries]) fun _ => rfl
  have hpayload : Alike Eq SameStage ((r.payload Payload.classify).mapError .payload)
      ((Request.payload { r with target } Payload.classify).mapError .payload) :=
    .of_eq rfl fun _ => rfl
  have hfilters : ∀ tree, Alike Filters.Agree SameStage
      ((Filters.ofParams (Translator.filterParams (Target.parse u.path basePath) r.method u.params)
        tree).mapError .filter)
      ((Filters.ofParams (Translator.filterParams (Target.parse v.path basePath) r.method v.params)
        tree).mapError .filter) :=
    fun tree => (Filters.alike_ofParams hfilter tree).mapError fun _ _ _ => rfl
  have hwindows : ∀ tree, Alike Windows.Agree SameStage
      ((Windows.ofParams u.params tree).mapError .window)
      ((Windows.ofParams v.params tree).mapError .window) :=
    fun tree => (Windows.alike_ofParams hentries tree).mapError fun _ _ _ => rfl
  unfold Translator.translate
  refine hurl.bind ?_
  rintro _ _ ⟨rfl, rfl⟩
  refine hselect.bind ?_
  rintro selection _ rfl
  refine hpayload.bind ?_
  rintro payload _ rfl
  refine (hfilters selection.aliases).bind fun fs gs hfs => ?_
  refine (hwindows selection.aliases).bind fun ws vs hws => .ok ?_
  exact Parts.agree_statement ⟨u, selection, payload, fs, ws⟩ ⟨v, selection, payload, gs, vs⟩ rfl rfl hpath
    hentries rfl rfl hfs hws

/-- Two negations, of which the first one keeps its place, and a column that comes twice. -/
theorem alike_translate_negations :
    let r : Request := ⟨.get, "/?y=gt.1&not.or=()&y=lt.3&not.and=()", [], [], none⟩
    let target := "/?not.and=()&y=gt.1&y=lt.3&not.or=()"
    ∃ u v, Url.parse r.target = .ok u ∧ Url.parse target = .ok v ∧
      QueryParams.Rearranged u.pairs v.pairs ∧
      Alike Statement.Agree SameStage (Translator.translate {} r)
        (Translator.translate {} { r with target }) := by
  intro r target
  have hu : Url.parse r.target = .ok ⟨"/", some "y=gt.1&not.or=()&y=lt.3&not.and=()"⟩ := by cbv
  have hv : Url.parse target = .ok ⟨"/", some "not.and=()&y=gt.1&y=lt.3&not.or=()"⟩ := by cbv
  have hup : Url.pairs ⟨"/", some "y=gt.1&not.or=()&y=lt.3&not.and=()"⟩ =
      [("y", "gt.1"), ("not.or", "()"), ("y", "lt.3"), ("not.and", "()")] := by cbv
  have hvp : Url.pairs ⟨"/", some "not.and=()&y=gt.1&y=lt.3&not.or=()"⟩ =
      [("not.and", "()"), ("y", "gt.1"), ("y", "lt.3"), ("not.or", "()")] := by cbv
  have h : QueryParams.Rearranged
      (Url.pairs ⟨"/", some "y=gt.1&not.or=()&y=lt.3&not.and=()"⟩)
      (Url.pairs ⟨"/", some "not.and=()&y=gt.1&y=lt.3&not.or=()"⟩) := by
    rw [hup, hvp]
    decide
  exact ⟨_, _, hu, hv, h, alike_translate hu hv rfl h⟩

end ResourceQuery
