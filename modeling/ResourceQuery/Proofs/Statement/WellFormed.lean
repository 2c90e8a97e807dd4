import Mathlib
import ResourceQuery.Proofs.Filter.Presence
import ResourceQuery.Proofs.Select.Levels
import ResourceQuery.Proofs.Statement.Attached
import ResourceQuery.Proofs.Windows
import ResourceQuery.Statement.Json

/-! # Well-formed statements

Each part of a statement is there for the kinds of statements that have it, and no part is there but empty;
that goes for every embed too, however deep it stands (`wellFormed_of_translate`). -/

namespace ResourceQuery

namespace Select

variable {α : Type}

/-- **A level with its joins**: there are some if and only if it has embeds, one under each label. -/
structure JoinedBy (items : List (Item α)) (join : Option JoinMap) : Prop where
  isSome_iff : join.isSome ↔ labels items ≠ []
  keys_eq : Entries.keys (join.getD []) = labels items

theorem joinedBy_joins? (nodes : List Node) : JoinedBy (itemsOf nodes) (joins? nodes) where
  isSome_iff := isSome_joins? nodes
  keys_eq := by rw [getD_joins?, keys_joins]

theorem exists_nodes_of_embed_mem {nodes : List Node} (hwf : ∀ n ∈ nodes, n.WellFormed) {label : String}
    {items : List (Item Unit)} {spread : Bool} {join : Option JoinMap}
    (h : .embed label items () spread join ∈ itemsOf nodes) :
    ∃ inner, inner ≠ [] ∧ (∀ n ∈ inner, n.WellFormed) ∧ items = itemsOf inner ∧ join = joins? inner := by
  rw [itemsOf_eq_map] at h
  obtain ⟨n, hn, hitem⟩ := List.mem_map.mp h
  cases hwf n hn with
  | star => simp [Node.item] at hitem
  | column => simp [Node.item] at hitem
  | field => simp [Node.item] at hitem
  | @embed _ _ _ inner _ _ _ hne hinner =>
    simp only [Node.item, Item.embed.injEq] at hitem
    obtain ⟨-, rfl, -, -, rfl⟩ := hitem
    exact ⟨inner, hne, hinner, rfl, rfl⟩

theorem joinedBy_of_embedAt {items : List (Item Unit)} {path : List String} {i : Item Unit}
    (h : EmbedAt items path i) {nodes : List Node} (hitems : items = itemsOf nodes)
    (hwf : ∀ n ∈ nodes, n.WellFormed) {label : String} {inner : List (Item Unit)} {spread : Bool}
    {join : Option JoinMap} (hi : i = .embed label inner () spread join) :
    inner ≠ [] ∧ JoinedBy inner join := by
  induction h generalizing nodes with
  | here hmem =>
    simp only [Item.embed.injEq] at hi
    obtain ⟨rfl, rfl, -, rfl, rfl⟩ := hi
    obtain ⟨nodes', hne, -, rfl, rfl⟩ := exists_nodes_of_embed_mem hwf (hitems ▸ hmem)
    exact ⟨itemsOf_ne_nil hne, joinedBy_joins? nodes'⟩
  | inside hmem _ ih =>
    obtain ⟨nodes', -, hwf', hinner, -⟩ := exists_nodes_of_embed_mem hwf (hitems ▸ hmem)
    exact ih hinner hwf' hi

end Select

/-! ## With conditions at the embeds -/

namespace Statement

open Select (depthOf heads labels JoinedBy)

variable (at_ : List String → EmbedConditions)

theorem heads_attach (path : List String) (items : List (Select.Item Unit)) :
    heads (attach at_ path items) = heads items := by
  rw [attach_eq_map, heads, List.filterMap_map]
  refine List.filterMap_congr fun i _ => ?_
  cases i <;> simp [attachItem, Select.Item.head?]

theorem joinedBy_attach {path : List String} {items : List (Select.Item Unit)}
    {join : Option Select.JoinMap} (h : JoinedBy items join) :
    JoinedBy (attach at_ path items) join := by
  have hlabels : labels (attach at_ path items) = labels items := by
    rw [labels, heads_attach, labels]
  exact ⟨by rw [hlabels, h.isSome_iff], by rw [hlabels, h.keys_eq]⟩

mutual
theorem depth_attachItem : ∀ (path : List String) (i : Select.Item Unit),
    (attachItem at_ path i).depth = i.depth
  | _, .star => by simp [attachItem, Select.Item.depth]
  | _, .column _ => by simp [attachItem, Select.Item.depth]
  | _, .field _ _ => by simp [attachItem, Select.Item.depth]
  | path, .embed label items _ _ _ => by
    simp [attachItem, Select.Item.depth, depthOf_attach (path ++ [label]) items]

theorem depthOf_attach : ∀ (path : List String) (items : List (Select.Item Unit)),
    depthOf (attach at_ path items) = depthOf items
  | _, [] => by simp [attach, depthOf]
  | path, i :: is => by
    simp [attach, depthOf, depth_attachItem path i, depthOf_attach path is]
end

end Statement

/-! ## What is written -/

theorem Json.field?_eq_nil_iff {key : String} {v : Option Json} : field? key v = [] ↔ v = none := by
  cases v <;> simp [field?]

theorem Json.flag_eq_nil_iff {key : String} {b : Bool} : flag key b = [] ↔ b = false := by
  cases b <;> simp [flag]

theorem Meta.json_ne_of_info? {m n : Meta} (h : Statement.info? m = some n) : n.json ≠ .obj [] := by
  unfold Statement.info? at h
  split at h
  · simp at h
  · rename_i hsaid
    obtain rfl := Option.some.inj h
    intro hjson
    have hempty : m = empty := by
      obtain ⟨single, count, head, maxAffected, rollback, missing, handling, timezone, columns,
        explain⟩ := m
      simpa [json, empty, Json.field?_eq_nil_iff, Json.flag_eq_nil_iff, and_assoc] using hjson
    exact hsaid (by simp [isEmpty, hempty])

/-! ## Statements -/

/-- **A well-formed statement**, of a request. -/
structure Statement.WellFormed (r : Request) (s : Statement) : Prop where
  /-- A function is called, and nothing else is. -/
  call_iff_target : s.kind = .call ↔ s.target.isCall
  call_iff_method : s.kind = .call ↔ s.call.method.isSome
  /-- Only calls have arguments. -/
  call_of_arguments : s.call.args.isSome ∨ s.call.style.isSome ∨ s.call.source.isSome → s.kind = .call
  /-- Rows are those of the body, and only for a kind that takes some. -/
  values_eq : ∀ v, s.values = some v → (s.kind = .insert ∨ s.kind = .update ∨ s.kind = .upsert) ∧
    Json.ofChars? (Text.Utf8.decode r.body) = some v
  /-- An upsert says what becomes of conflicting rows, and nothing else does. -/
  upsert_iff : s.upsert.isSome ↔ s.kind = .upsert
  onConflict_ne : ∀ u, s.upsert = some u → u.onConflict ≠ some ""
  /-- No part is there but empty. -/
  select_ne : s.select ≠ some []
  filter_ne : s.filter ≠ some []
  order_ne : s.window.order ≠ some []
  info_ne : ∀ m, s.info = some m → m.json ≠ .obj []
  /-- The joins are those of the embeds. -/
  joinedBy : Select.JoinedBy (s.select.getD []) s.join
  /-- The same inside every embed. -/
  embeds : ∀ path label items note spread join,
    Select.EmbedAt (s.select.getD []) path (.embed label items note spread join) →
      items ≠ [] ∧ note.filter ≠ some [] ∧ note.window.order ≠ some [] ∧ Select.JoinedBy items join
  /-- Embeds stand only so deep inside one another. -/
  depth_le : Select.depthOf (s.select.getD []) ≤ Select.maxNesting

theorem StatementKind.ofRequest_eq_call_iff {target : Target} {method : Method}
    {headers : RequestHeaders} : ofRequest target method headers = .call ↔ target.isCall := by
  unfold ofRequest
  cases target.isCall with
  | true => simp
  | false =>
    cases method <;> simp
    -- a POST
    split <;> simp

theorem Request.values_of_payload {r : Request} {v : Json}
    (h : r.payload Payload.classify = .ok (.values v)) :
    Json.ofChars? (Text.Utf8.decode r.body) = some v := by
  unfold Request.payload at h
  split at h
  · simp at h
  · obtain ⟨body, hbody, h⟩ := Refusal.bind_eq_ok.mp h
    have hread : body = r.body := by
      unfold Request.readBody at hbody
      split at hbody
      · split at hbody
        · simp at hbody
        · exact (Except.ok.inj hbody).symm
      · exact (Except.ok.inj hbody).symm
    subst hread
    unfold Payload.classify Payload.ofChars at h
    split at h
    · simp at h
    · split at h
      · split at h
        · rename_i w hw
          obtain rfl : w = v := by simpa using h
          exact hw
        · simp at h
      · simp at h

namespace Statement

theorem eq_values_of_values? {kind : StatementKind} {payload : Payload} {v : Json}
    (h : values? kind payload = some v) : payload = .values v := by
  unfold values? at h
  split at h
  · split at h
    · rw [Option.some.inj h]
    · simp at h
  · simp at h

theorem isMutation_of_values? {kind : StatementKind} {payload : Payload} {v : Json}
    (h : values? kind payload = some v) : kind = .insert ∨ kind = .update ∨ kind = .upsert := by
  unfold values? at h
  cases payload with
  | empty => simp at h
  | raw text => simp at h
  | values w => cases kind <;> simp_all [StatementKind.isMutation]

theorem filter?_ne {f : Filter} : filter? f ≠ some [] := by cases f <;> simp [filter?]

theorem attach_ne_nil (at_ : List String → EmbedConditions) {path : List String}
    {items : List (Select.Item Unit)} (h : items ≠ []) : attach at_ path items ≠ [] := by
  rw [attach_eq_map]
  simpa using h

theorem select?_ne {filters : Filters} {windows : Windows} {items : List (Select.Item Unit)} :
    select? filters windows items ≠ some [] := by
  cases items with
  | nil => simp [select?]
  | cons i is => exact fun h => attach_ne_nil _ (List.cons_ne_nil i is) (Option.some.inj h)

end Statement

namespace Translator

variable {basePath : String} {kind : StatementKind} {target : Target} {method : Method}
  {params : QueryParams} {headers : RequestHeaders} {payload : Payload}

theorem isSome_method_iff (h : kind = .call ↔ target.isCall) :
    kind = .call ↔ (call { basePath } kind target method params payload).method.isSome := by
  unfold call
  by_cases hkind : kind = .call
  · rw [if_pos hkind]
    refine iff_of_true hkind ?_
    show (Call.ofRequest target method params payload).method.isSome
    unfold Call.ofRequest
    rw [h.mp hkind]
    simp only [Bool.not_true, Bool.false_eq_true, if_false]
    split
    · cases payload <;> rfl
    · rfl
  · rw [if_neg hkind]
    exact iff_of_false hkind (by simp [Call.none])

theorem kind_of_arguments (h : let c := call { basePath } kind target method params payload
    c.args.isSome ∨ c.style.isSome ∨ c.source.isSome) : kind = .call := by
  by_contra hkind
  simp [call, hkind, Call.none] at h

theorem isSome_upsert?_iff : (upsert? { basePath } kind params headers).isSome ↔ kind = .upsert := by
  unfold upsert?
  split <;> simp_all

theorem onConflict_ne {u : Upsert} (h : upsert? { basePath } kind params headers = some u) :
    u.onConflict ≠ some "" := by
  unfold upsert? at h
  split at h
  · obtain rfl := Option.some.inj h
    intro hempty
    have hkept : (params.first? "on_conflict").filter (· ≠ "") = some "" := hempty
    simp [Option.filter_eq_some_iff] at hkept
  · simp at h

end Translator

theorem Window.order_ne_of_at? {params : QueryParams} {tree : AliasTree} {ws : Windows}
    (h : Windows.ofParams params tree = .ok ws) (path : List String) :
    ((Windows.at? path ws).getD .all).order ≠ some [] := by
  rw [Windows.at?_ofParams h path]
  split
  · simp [Window.all]
  · exact Window.order_ofEntries_ne _

namespace Parts

variable {basePath : String} {r : Request} {p : Parts}

theorem ReadFrom.exists_nodes (hread : p.ReadFrom { basePath } r) :
    ∃ nodes, (∀ n ∈ nodes, n.WellFormed) ∧ Select.depthOf (Select.itemsOf nodes) ≤ Select.maxNesting ∧
      (p.statement { basePath } r).join = Select.joins? nodes ∧
      (p.statement { basePath } r).select.getD [] =
        Statement.attach (Statement.conditionsAt p.filters p.windows) [] (Select.itemsOf nodes) := by
  obtain ⟨nodes, hnodes, hsel⟩ := Refusal.map_eq_ok.mp hread.selection
  refine ⟨nodes, fun n hn => (Select.wellFormed_of_nodesOf hnodes n hn).1,
    Select.depthOf_le_of_nodesOf hnodes, ?_, ?_⟩
  · show Statement.join? p.selection.join = Select.joins? nodes
    rw [← hsel]
    rfl
  · have hitems : p.selection.items = Select.itemsOf nodes := by rw [← hsel]; rfl
    rw [← hitems]
    exact Statement.getD_select? _ _ _

/-- **The joins of a statement are those of its embeds.** -/
theorem ReadFrom.joinedBy (hread : p.ReadFrom { basePath } r) :
    Select.JoinedBy ((p.statement { basePath } r).select.getD []) (p.statement { basePath } r).join := by
  obtain ⟨nodes, -, -, hjoin, hselect⟩ := hread.exists_nodes
  rw [hjoin, hselect]
  exact Statement.joinedBy_attach _ (Select.joinedBy_joins? nodes)

theorem ReadFrom.joinedBy_embed (hread : p.ReadFrom { basePath } r) {path : List String} {label : String}
    {items : List (Select.Item EmbedConditions)} {note : EmbedConditions} {spread : Bool}
    {join : Option Select.JoinMap}
    (hat : Select.EmbedAt ((p.statement { basePath } r).select.getD []) path
      (.embed label items note spread join)) :
    items ≠ [] ∧ Select.JoinedBy items join ∧ note = Statement.conditionsAt p.filters p.windows path := by
  obtain ⟨nodes, hwf, -, -, hselect⟩ := hread.exists_nodes
  obtain ⟨hnote, inner, hat', hinner⟩ := Statement.embed_of_embedAt hat hselect rfl
  obtain ⟨hne, hjoined⟩ := Select.joinedBy_of_embedAt hat' rfl hwf rfl
  rw [hinner]
  exact ⟨Statement.attach_ne_nil _ hne, Statement.joinedBy_attach _ hjoined, hnote⟩

end Parts

/-- **Every statement is well-formed**, whatever the request. -/
theorem wellFormed_of_translate {basePath : String} {r : Request} {s : Statement}
    (h : Translator.translate { basePath } r = .ok s) : s.WellFormed r := by
  obtain ⟨p, hread, rfl⟩ := Translator.translate_eq_ok.mp h
  have hcall : (p.kind { basePath } r = .call) ↔ (p.target { basePath }).isCall :=
    StatementKind.ofRequest_eq_call_iff
  have hvalues : ∀ v, Statement.values? (p.kind { basePath } r) p.payload = some v →
      Json.ofChars? (Text.Utf8.decode r.body) = some v := fun v hv =>
    Request.values_of_payload (Statement.eq_values_of_values? hv ▸ hread.payload)
  constructor <;> dsimp only [Parts.statement]
  case call_iff_target => exact hcall
  case call_iff_method => exact Translator.isSome_method_iff hcall
  case call_of_arguments => exact Translator.kind_of_arguments
  case values_eq => exact fun v hv => ⟨Statement.isMutation_of_values? hv, hvalues v hv⟩
  case upsert_iff => exact Translator.isSome_upsert?_iff
  case onConflict_ne => exact fun u hu => Translator.onConflict_ne hu
  case select_ne => exact Statement.select?_ne
  case filter_ne => exact Statement.filter?_ne
  case order_ne => exact Window.order_ne_of_at? hread.windows []
  case info_ne => exact fun m hm => Meta.json_ne_of_info? hm
  case joinedBy => exact hread.joinedBy
  case embeds =>
    intro path label items note spread join hat
    obtain ⟨hne, hjoined, rfl⟩ := hread.joinedBy_embed hat
    have hpath := hat.path_ne_nil
    refine ⟨hne, fun hfilter => Filters.ne_nil_of_embedded hread.filters hpath hfilter rfl, ?_, hjoined⟩
    have horder := Window.order_ne_of_at? hread.windows path
    rwa [Windows.at?, if_neg hpath] at horder
  case depth_le =>
    obtain ⟨nodes, -, hdepth, -, hselect⟩ := hread.exists_nodes
    show Select.depthOf ((p.statement { basePath } r).select.getD []) ≤ Select.maxNesting
    rw [hselect, Statement.depthOf_attach]
    exact hdepth

/-- An upsert with conditions at an embed that holds another one. -/
theorem wellFormed_of_translate_upsert :
    let r : Request := ⟨.post, "/t?select=a(b())&a.x=eq.1&a.b.order=y&on_conflict=id",
      [("Prefer", "resolution=ignore-duplicates"), ("Content-Type", "application/json")],
      Text.Utf8.encode ['[', ']'], none⟩
    ∃ s, Translator.translate {} r = .ok s ∧ s.WellFormed r := by
  intro r
  have h : ∃ s, Translator.translate {} r = .ok s := by
    let p : Parts := ⟨⟨"/t", some "select=a(b())&a.x=eq.1&a.b.order=y&on_conflict=id"⟩, .ofNodes
        [.embed "a" .plain false [.embed "b" .plain false [.star]]],
      .values (.arr []), ⟨[], [(["a"], [.column "x" [(.comparison .eq, .value (.int 1))]])]⟩,
      ⟨.all, [(["a", "b"], ⟨some [⟨"y", none, none⟩], none, none⟩)]⟩⟩
    refine ⟨_, Translator.translate_eq_ok.mpr ⟨p, ⟨?_, ?_, ?_, ?_, ?_⟩, rfl⟩⟩
    all_goals cbv
  obtain ⟨s, h⟩ := h
  exact ⟨s, h, wellFormed_of_translate h⟩

end ResourceQuery
