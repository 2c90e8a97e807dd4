import ResourceQuery.Proofs.Filter.DistinctKeys
import ResourceQuery.Proofs.Select.Wire
import ResourceQuery.Proofs.Statement.WellFormed

/-! # Statements that name no key twice

A statement is written as an object of objects. Outside its filters no object ever names a key twice: the
fields of each kind of object have different names, joins come once for each label, and what is read names
no key twice. Inside its filters a key comes twice exactly where a column is called like a group or the
negation beside it. So a statement can be read back without loss exactly if it has no such column
(`distinctKeys_of_translate`); there are requests whose statement has one
(`exists_translate_repeats_key`). -/

namespace ResourceQuery

/-! ## Joins and windows -/

theorem Select.JoinedBy.nodup_keys {α : Type} {items : List (Item α)} {join : Option JoinMap}
    (h : JoinedBy items join) : ∀ j, join = some j → (Entries.keys j).Nodup := by
  rintro j rfl
  have hkeys : Entries.keys j = labels items := h.keys_eq
  rw [hkeys]
  exact Entries.nodup_eraseDups _

theorem OrderTerm.distinctKeys_json (t : OrderTerm) : t.json.DistinctKeys := by
  have hnulls : ∀ v, t.nullsFirst.map Json.bool = some v → v.DistinctKeys := by
    intro v h
    obtain ⟨b, -, rfl⟩ := Option.map_eq_some_iff.mp h
    simp
  have hjson : t.json = .obj (Json.present [("column", some (.str t.column)),
      ("direction", t.direction.map fun d => .str d.word), ("nullsFirst", t.nullsFirst.map .bool)]) := by
    simp [json, Json.present, Json.field?]
  rw [hjson, Json.distinctKeys_present_iff (by simp [Entries.keys])]
  simpa using hnulls

theorem Order.distinctKeys_json (ts : List OrderTerm) : (json ts).DistinctKeys := by
  rw [json, Json.distinctKeys_arr_iff, List.forall_mem_map]
  exact fun t _ => t.distinctKeys_json

/-- What a window may have. -/
def Window.slots (w : Window) : List (String × Option Json) :=
  [("order", w.order.map Order.json), ("limit", w.limit.map fun n => .int n),
    ("offset", w.offset.map fun n => .int n)]

theorem Window.fields_eq (w : Window) : w.fields = Json.present w.slots := by
  simp [fields, slots, Json.present]

theorem Window.distinctKeys_slots (w : Window) :
    ∀ slot ∈ w.slots, ∀ v, slot.2 = some v → v.DistinctKeys := by
  have number : ∀ (n : Option Nat) v, (n.map fun n => Json.int n) = some v → v.DistinctKeys := by
    rintro (_ | n) v h
    · simp at h
    · obtain rfl := Option.some.inj h
      simp
  simp only [slots, List.forall_mem_cons]
  refine ⟨fun v h => ?_, number _, number _, by simp⟩
  obtain ⟨ts, -, rfl⟩ := Option.map_eq_some_iff.mp h
  exact Order.distinctKeys_json ts

/-! ## Embeds -/

namespace Statement

open Select (Item EveryEmbed)

/-- What an embed is to have for its own object to name no key twice. -/
def EmbedNamesOnce : Item EmbedConditions → Prop
  | .embed _ _ note _ join => (∀ f, note.filter = some f → f.json.DistinctKeys) ∧
      ∀ j, join = some j → (Entries.keys j).Nodup
  | _ => True

/-- **An embed** names no key twice if its list, its filter and its joins do not. -/
theorem distinctKeys_json_embed {label : String} {items : List (Item EmbedConditions)}
    {note : EmbedConditions} {spread : Bool} {join : Option Select.JoinMap} :
    ((Item.embed label items note spread join).json EmbedConditions.fields).DistinctKeys ↔
      (∀ v ∈ Select.itemsJson EmbedConditions.fields items, v.DistinctKeys) ∧
        EmbedNamesOnce (.embed label items note spread join) := by
  have hjson : (Item.embed label items note spread join).json EmbedConditions.fields =
      .obj (Json.present [(label, some (.obj (Json.present ([
        ("select", some (.arr (Select.itemsJson EmbedConditions.fields items))),
        ("where", note.filter.map Filter.json)] ++ note.window.slots ++
        [("spread", if spread then some (.bool true) else none),
        ("join", join.map Select.JoinMap.json)]))))]) := by
    simp [Item.json, EmbedConditions.fields, Window.fields_eq, Json.present, Json.flag_eq_field?,
      Json.field?]
  rw [hjson, Json.distinctKeys_present_iff (by simp [Entries.keys])]
  simp only [List.forall_mem_singleton, Option.some.injEq, forall_eq']
  rw [Json.distinctKeys_present_iff (by simp [Entries.keys, Window.slots])]
  simp only [List.forall_mem_append]
  rw [and_iff_left note.window.distinctKeys_slots]
  simp [EmbedNamesOnce, Json.distinctKeys_arr_iff, Select.JoinMap.distinctKeys_json_iff, and_assoc]

mutual
theorem distinctKeys_json_item : ∀ i : Item EmbedConditions,
    (i.json EmbedConditions.fields).DistinctKeys ↔ EveryEmbed EmbedNamesOnce [i]
  | .star => iff_of_true (by simp [Item.json]) (Select.everyEmbed_of_ne (by simp))
  | .column _ => iff_of_true (by simp [Item.json]) (Select.everyEmbed_of_ne (by simp))
  | .field label f => by
    refine iff_of_true ?_ (Select.everyEmbed_of_ne (by simp))
    simp [Item.json, Json.distinctKeys_obj_iff, Entries.keys, f.distinctKeys_json]
  | .embed label items note spread join => by
    rw [distinctKeys_json_embed, Select.everyEmbed_embed, distinctKeys_itemsJson items, and_comm]

theorem distinctKeys_itemsJson : ∀ items : List (Item EmbedConditions),
    (∀ v ∈ Select.itemsJson EmbedConditions.fields items, v.DistinctKeys) ↔
      EveryEmbed EmbedNamesOnce items
  | [] => iff_of_true (by simp [Select.itemsJson]) Select.everyEmbed_nil
  | i :: is => by
    rw [Select.itemsJson, List.forall_mem_cons, distinctKeys_json_item i, distinctKeys_itemsJson is,
      ← Select.everyEmbed_cons]
end

end Statement

/-! ## The whole object -/

theorem ExplainOptions.distinctKeys_json (o : ExplainOptions) : o.json.DistinctKeys := by
  simp [json, Json.distinctKeys_obj_iff, Entries.keys]

theorem Meta.distinctKeys_json (m : Meta) : m.json.DistinctKeys := by
  have hjson : m.json = .obj (Json.present [
      ("cardinality", if m.single then some (.str "one") else none),
      ("count", m.count.map fun c => .str c.word), ("head", if m.head then some (.bool true) else none),
      ("maxAffected", m.maxAffected.map .int),
      ("rollback", if m.rollback then some (.bool true) else none),
      ("missing", m.missing.map fun p => .str p.word), ("handling", m.handling.map fun h => .str h.word),
      ("timezone", m.timezone.map .str), ("columns", m.columns.map fun cs => .arr (cs.map .str)),
      ("explain", m.explain.map ExplainOptions.json)]) := by
    cases hsingle : m.single <;> simp [json, Json.present, Json.flag_eq_field?, Json.field?, hsingle]
  rw [hjson, Json.distinctKeys_present_iff (by simp [Entries.keys])]
  simp [Json.distinctKeys_arr_iff, ExplainOptions.distinctKeys_json]

namespace Statement

/-- What a statement may have. -/
def slots (s : Statement) : List (String × Option Json) :=
  [("type", some (.str s.kind.word)), ("from", s.target.relation?.map .str),
    ("function", s.target.function?.map .str), ("schema", s.schema.map .str),
    ("join", s.join.map Select.JoinMap.json), ("select", s.select.map selectJson),
    ("where", s.filter.map Filter.json), ("values", s.values), ("args", s.call.args)] ++
  s.window.slots ++
  [("onConflict", s.upsert.bind fun u => u.onConflict.map .str),
    ("ignoreDuplicates", s.upsert.map fun u => .bool u.ignoreDuplicates),
    ("httpMethod", s.call.method.map fun m => .str m.word),
    ("paramsType", s.call.style.map fun t => .str t.word),
    ("inputType", s.call.source.map fun t => .str t.word), ("$meta", s.info.map Meta.json)]

theorem json_eq (s : Statement) : s.json = .obj (Json.present s.slots) := by
  have htarget : s.target.fields = Json.field? "from" (s.target.relation?.map .str) ++
      Json.field? "function" (s.target.function?.map .str) := by
    cases s.target <;> simp [Target.fields, Target.relation?, Target.function?, Json.field?]
  have hupsert : (s.upsert.map Upsert.fields).getD [] =
      Json.field? "onConflict" (s.upsert.bind fun u => u.onConflict.map .str) ++
        Json.field? "ignoreDuplicates" (s.upsert.map fun u => .bool u.ignoreDuplicates) := by
    cases s.upsert <;> simp [Upsert.fields, Json.field?]
  simp [json, slots, Json.present, Window.fields_eq, Call.fields, htarget, hupsert,
    Json.cons_eq_field?_append]

/-- **A statement** names no key twice if its joins, its list, its filter and its values do not. -/
theorem distinctKeys_json_iff (s : Statement) : s.json.DistinctKeys ↔
    (∀ j, s.join = some j → (Entries.keys j).Nodup) ∧
      Select.EveryEmbed EmbedNamesOnce (s.select.getD []) ∧
      (∀ f, s.filter = some f → f.json.DistinctKeys) ∧ (∀ v, s.values = some v → v.DistinctKeys) ∧
        ∀ v, s.call.args = some v → v.DistinctKeys := by
  have hselect : (∀ items, s.select = some items → (selectJson items).DistinctKeys) ↔
      Select.EveryEmbed EmbedNamesOnce (s.select.getD []) := by
    cases s.select with
    | none => simp [Select.everyEmbed_nil]
    | some items => simp [selectJson, Json.distinctKeys_arr_iff, distinctKeys_itemsJson]
  have honConflict : ∀ v : Json, (s.upsert.bind fun u => u.onConflict.map .str) = some v →
      v.DistinctKeys := by
    intro v h
    obtain ⟨u, -, h⟩ := Option.bind_eq_some_iff.mp h
    obtain ⟨column, -, rfl⟩ := Option.map_eq_some_iff.mp h
    simp
  rw [json_eq, Json.distinctKeys_present_iff (by simp [Entries.keys, slots, Window.slots]), ← hselect]
  simp only [slots, List.forall_mem_append, and_iff_left s.window.distinctKeys_slots,
    List.forall_mem_cons, and_iff_right honConflict]
  simp [Select.JoinMap.distinctKeys_json_iff, Meta.distinctKeys_json]

end Statement

/-! ## What is read names no key twice -/

theorem Request.distinctKeys_of_payload {r : Request} {v : Json}
    (h : r.payload Payload.classify = .ok (.values v)) : v.DistinctKeys :=
  Json.distinctKeys_of_ofChars? (values_of_payload h)

namespace Call

theorem distinctKeys_arguments (params : QueryParams) : (Json.obj (arguments params)).DistinctKeys := by
  have key_of_argument? : ∀ {e : String × List String} {a : String × Json}, argument? e = some a →
      a.1 = e.1 ∧ a.2.DistinctKeys := by
    intro e a h
    unfold argument? at h
    split at h
    · simp at h
    · split at h
      · simp at h
      · obtain rfl := Option.some.inj h
        exact ⟨rfl, Scalar.distinctKeys_coerce _⟩
  refine Json.distinctKeys_obj_iff.mpr ⟨?_, fun a ha => ?_⟩
  · refine Entries.nodup_keys_filterMap params.nodup_keys fun d e d' e' hd he heq => ?_
    rw [← (key_of_argument? hd).1, ← (key_of_argument? he).1, heq]
  · obtain ⟨e, -, he⟩ := List.mem_filterMap.mp ha
    exact (key_of_argument? he).2

theorem distinctKeys_args {target : Target} {method : Method} {params : QueryParams} {payload : Payload}
    (hpayload : ∀ v, payload = .values v → v.DistinctKeys) :
    ∀ v, (ofRequest target method params payload).args = some v → v.DistinctKeys := by
  intro v h
  unfold ofRequest at h
  split at h
  · simp [none] at h
  · split at h
    · unfold ofPayload at h
      split at h
      · simp [none] at h
      · obtain rfl := Option.some.inj h
        exact hpayload _ rfl
      · obtain rfl := Option.some.inj h
        simp [Json.distinctKeys_obj_iff, Entries.keys]
    · unfold ofParams at h
      simp only at h
      split at h
      · simp at h
      · rename_i a as hargs
        obtain rfl := Option.some.inj h
        exact hargs ▸ distinctKeys_arguments params

end Call

/-- **The filters of a request** name no key twice exactly if no column anywhere in them is called like a
group or the negation beside it. -/
theorem Filters.distinctKeys_json_iff {params : QueryParams} {tree : AliasTree} {fs : Filters}
    (h : ofParams params tree = .ok fs) {path : List String} {f : Filter} (hat : at? path fs = some f) :
    f.json.DistinctKeys ↔ f.Everywhere Filter.Clear :=
  Filter.distinctKeys_json_iff (madeOf_ofParams FilterValue.say_namesOnce h path f hat).everywhere_tidy

/-! ## Statements -/

/-- **No column is called like a group or the negation beside it**, in the filter of a statement or in that
of an embed. -/
structure Statement.Clear (s : Statement) : Prop where
  filter : ∀ f, s.filter = some f → f.Everywhere Filter.Clear
  embeds : ∀ path label items note spread join,
    Select.EmbedAt (s.select.getD []) path (.embed label items note spread join) →
      ∀ f, note.filter = some f → f.Everywhere Filter.Clear

namespace Parts

variable {basePath : String} {r : Request} {p : Parts}

theorem ReadFrom.distinctKeys_filter_iff (hread : p.ReadFrom { basePath } r) {f : Filter}
    (hf : (p.statement { basePath } r).filter = some f) :
    f.json.DistinctKeys ↔ f.Everywhere Filter.Clear := by
  have hat : Filters.at? [] p.filters = some f := by
    rw [Filters.at?_nil, ← Statement.getD_filter? p.filters.top]
    show some ((p.statement { basePath } r).filter.getD []) = some f
    rw [hf, Option.getD_some]
  exact Filters.distinctKeys_json_iff hread.filters hat

theorem ReadFrom.distinctKeys_embed_iff (hread : p.ReadFrom { basePath } r) {path : List String}
    {label : String} {items : List (Select.Item EmbedConditions)} {note : EmbedConditions} {spread : Bool}
    {join : Option Select.JoinMap}
    (hembed : Select.EmbedAt ((p.statement { basePath } r).select.getD []) path
      (.embed label items note spread join)) {f : Filter} (hf : note.filter = some f) :
    f.json.DistinctKeys ↔ f.Everywhere Filter.Clear := by
  obtain ⟨-, -, rfl⟩ := hread.joinedBy_embed hembed
  have hat : Filters.at? path p.filters = some f := by
    rw [Filters.at?, if_neg hembed.path_ne_nil]
    exact hf
  exact Filters.distinctKeys_json_iff hread.filters hat

end Parts

/-- **A statement names no key twice exactly if it is clear**, and exactly then an ordinary reader keeps
all of it. -/
theorem distinctKeys_of_translate {basePath : String} {r : Request} {s : Statement}
    (h : Translator.translate { basePath } r = .ok s) :
    (s.json.DistinctKeys ↔ s.Clear) ∧ (s.json.collapse = s.json ↔ s.Clear) := by
  obtain ⟨p, hread, rfl⟩ := Translator.translate_eq_ok.mp h
  -- what is read back as it stands names no key twice, so the two halves are one
  rw [Json.collapse_eq_self_iff, and_self, Statement.distinctKeys_json_iff]
  have hpayload : ∀ v, p.payload = .values v → v.DistinctKeys := fun v hv =>
    Request.distinctKeys_of_payload (hv ▸ hread.payload)
  constructor
  · rintro ⟨-, hembeds, hfilter, -, -⟩
    constructor
    · exact fun f hf => (hread.distinctKeys_filter_iff hf).mp (hfilter f hf)
    · exact fun path label items note spread join hat f hf =>
        (hread.distinctKeys_embed_iff hat hf).mp ((hembeds path _ hat).1 f hf)
  · rintro ⟨hfilter, hembeds⟩
    refine ⟨hread.joinedBy.nodup_keys, fun path i hat => ?_,
      fun f hf => (hread.distinctKeys_filter_iff hf).mpr (hfilter f hf),
      fun v hv => hpayload v (Statement.eq_values_of_values? hv), fun v hv => ?_⟩
    · cases i with
      | star => trivial
      | column name => trivial
      | field label f => trivial
      | embed label items note spread join =>
        exact ⟨fun f hf =>
          (hread.distinctKeys_embed_iff hat hf).mpr (hembeds path label items note spread join hat f hf),
          (hread.joinedBy_embed hat).2.1.nodup_keys⟩
    · -- the arguments of a call, and of nothing else
      have hv : (Translator.call { basePath } _ _ _ _ _).args = some v := hv
      unfold Translator.call at hv
      split at hv
      · exact Call.distinctKeys_args hpayload v hv
      · simp [Call.none] at hv

/-- A column called like the group beside its embed. -/
theorem distinctKeys_of_translate_apart :
    let r : Request := ⟨.get, "/?select=a()&and=(x.eq.1)&a.$and=eq.2", [], [], none⟩
    ∃ s, Translator.translate {} r = .ok s ∧ (s.json.DistinctKeys ↔ s.Clear) ∧
      (s.json.collapse = s.json ↔ s.Clear) := by
  intro r
  have h : ∃ s, Translator.translate {} r = .ok s := by
    let p : Parts := ⟨⟨"/", some "select=a()&and=(x.eq.1)&a.$and=eq.2"⟩, .ofNodes
        [.embed "a" .plain false [.star]], .empty,
      ⟨[.group .and [[.column "x" [(.comparison .eq, .value (.int 1))]]]],
        [(["a"], [.column "$and" [(.comparison .eq, .value (.int 2))]])]⟩, ⟨.all, []⟩⟩
    refine ⟨_, Translator.translate_eq_ok.mpr ⟨p, ⟨?_, ?_, ?_, ?_, ?_⟩, rfl⟩⟩
    all_goals cbv
  obtain ⟨s, h⟩ := h
  exact ⟨s, h, distinctKeys_of_translate h⟩

/-- A column called like the group beside it: one of the two conditions is lost. -/
theorem exists_translate_repeats_key :
    let r : Request := ⟨.get, "/?$and=eq.1&and=(a.eq.1)", [], [], none⟩
    ∃ s, Translator.translate {} r = .ok s ∧ ¬ s.json.DistinctKeys ∧ s.json.collapse ≠ s.json := by
  intro r
  let p : Parts := ⟨⟨"/", some "$and=eq.1&and=(a.eq.1)"⟩, .ofNodes [], .empty,
    ⟨[.column "$and" [(.comparison .eq, .value (.int 1))],
      .group .and [[.column "a" [(.comparison .eq, .value (.int 1))]]]], []⟩, ⟨.all, []⟩⟩
  have hread : p.ReadFrom {} r := by
    refine ⟨?_, ?_, ?_, ?_, ?_⟩
    all_goals cbv
  have hrepeats : ¬ (p.statement {} r).json.DistinctKeys := by
    intro hdistinct
    have hfilter := ((Statement.distinctKeys_json_iff _).mp hdistinct).2.2.1 p.filters.top rfl
    have hclear := (hread.distinctKeys_filter_iff rfl).mp hfilter p.filters.top .self
    exact (hclear "$and" (by simp [p, Filter.keys, Condition.key])).1 .and
      (by simp [p, Filter.keys, Condition.key]) rfl
  refine ⟨_, Translator.translate_eq_ok.mpr ⟨p, hread, rfl⟩, hrepeats, ?_⟩
  rw [ne_eq, Json.collapse_eq_self_iff]
  exact hrepeats

end ResourceQuery
