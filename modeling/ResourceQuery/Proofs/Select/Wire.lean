import Mathlib
import ResourceQuery.Proofs.Entries
import ResourceQuery.Proofs.Json.Same
import ResourceQuery.Proofs.Refusal
import ResourceQuery.Select.Json
import ResourceQuery.Select.Parser

/-! # What the JSON of a select list tells

The JSON of a select list tells everything about it but one thing: whether a `*` is the star or a column of
that name, which a text says in quotes (`same_wire_of_parse`). So two lists have the same JSON exactly if they
are the same list once each such column is taken for the star.

The objects of fields and embeds have places for different keys; an embed has a list, and no field has one.
Place by place they are what they were made from (`Item.same_json`). -/

namespace ResourceQuery.Select

/-! ## Fields and joins -/

/-- What a field may have. -/
def Field.slots (f : Field) : List (String × Option Json) :=
  [("column", f.column.map .str), ("path", f.path.map .str), ("preCast", f.preCast.map .str),
    ("aggregate", f.aggregate.map fun a => .str a.word), ("cast", f.cast.map .str)]

theorem Field.json_eq (f : Field) : f.json = .obj (Json.present f.slots) := by
  simp [json, slots, Json.present]

/-- What a join may have. -/
def Join.slots (j : Join) : List (String × Option Json) :=
  [("from", j.resource.map .str), ("type", if j.kind = .inner then some (.str "inner") else none),
    ("hint", j.hint.map .str)]

theorem Join.json_eq (j : Join) : j.json = .obj (Json.present j.slots) := by
  cases hkind : j.kind <;> simp [json, slots, Json.present, Json.field?, hkind]

theorem Field.distinctKeys_json (f : Field) : f.json.DistinctKeys := by
  rw [json_eq, Json.distinctKeys_present_iff (by simp [slots, Entries.keys])]
  simp [slots]

theorem Join.distinctKeys_json (j : Join) : j.json.DistinctKeys := by
  rw [json_eq, Json.distinctKeys_present_iff (by simp [slots, Entries.keys])]
  simp [slots]

theorem JoinMap.distinctKeys_json_iff {join : JoinMap} :
    join.json.DistinctKeys ↔ (Entries.keys join).Nodup := by
  have hkeys : Entries.keys (join.map fun e => (e.1, e.2.json)) = Entries.keys join := by
    simp [Entries.keys]
  rw [json, Json.distinctKeys_obj_iff, hkeys, and_iff_left]
  intro f hf
  obtain ⟨e, -, rfl⟩ := List.mem_map.mp hf
  exact e.2.distinctKeys_json

theorem Aggregate.same_word (a b : Aggregate) : (Json.str a.word).same (.str b.word) = (a == b) := by
  rw [Json.same_str]
  cases a <;> cases b <;> decide

theorem Join.same_json (j k : Join) : j.json.same k.json = (j == k) := by
  have hkind : Json.sameOption (if j.kind = .inner then some (.str "inner") else none)
      (if k.kind = .inner then some (.str "inner") else none) = (j.kind == k.kind) := by
    cases j.kind <;> cases k.kind <;> decide
  have hkeys : Entries.keys j.slots = Entries.keys k.slots := rfl
  rw [json_eq, json_eq, Json.same_present hkeys (by simp [slots, Entries.keys])]
  simp only [slots, Json.sameSlots, Json.sameOption_map Json.same_str, hkind]
  obtain ⟨resource, kind, hint⟩ := j
  obtain ⟨resource', kind', hint'⟩ := k
  rw [Bool.eq_iff_iff]
  simp

/-- **The joins of a level are told by their JSON.** -/
theorem JoinMap.same_json (join join' : JoinMap) : join.json.same join'.json = Entries.sameMap join join' := by
  have hwithin : ∀ es : JoinMap, Json.sameWithin (es.map fun e => (e.1, e.2.json))
      (join'.map fun e => (e.1, e.2.json)) = es.all fun e => Entries.get? e.1 join' = some e.2 := by
    intro es
    induction es with
    | nil => rfl
    | cons e es ih =>
      rw [List.map_cons, Json.sameWithin, ih, List.all_cons, Entries.get?_map_snd]
      cases Entries.get? e.1 join' with
      | none => rfl
      | some k =>
        have hk : e.2.json.same k.json = decide (some k = some e.2) := by
          rw [Join.same_json, Bool.eq_iff_iff, beq_iff_eq, decide_eq_true_iff, Option.some.injEq]
          exact eq_comm
        simp only [Option.map_some, hk]
  rw [json, json, Json.same, hwithin, Entries.sameMap, List.length_map, List.length_map]

/-! ## Entries -/

/-- The JSON of a list that nothing is attached to. -/
abbrev bareItems (items : List (Item Unit)) : List Json := itemsJson (fun _ => []) items

/-- What the object of an entry may have. -/
def Item.slots : Item Unit → List (String × Option Json)
  | .embed _ items _ spread join =>
    ("select", some (.arr (bareItems items))) ::
      (Field.slots .plain ++ [("spread", if spread then some (.bool true) else none),
        ("join", join.map JoinMap.json)])
  | .field _ f => ("select", none) :: (f.slots ++ [("spread", none), ("join", none)])
  | _ => ("select", none) :: (Field.slots .plain ++ [("spread", none), ("join", none)])

theorem Item.keys_slots (i : Item Unit) : Entries.keys i.slots =
    ["select", "column", "path", "preCast", "aggregate", "cast", "spread", "join"] := by
  cases i <;> rfl

theorem Item.json_field (label : String) (f : Field) :
    (Item.field label f).json (fun _ : Unit => []) = .obj [(label, .obj (Json.present (slots (.field label f))))] := by
  rw [json, Field.json_eq]
  rfl

theorem Item.json_embed (label : String) (items : List (Item Unit)) (spread : Bool) (join : Option JoinMap) :
    (Item.embed label items () spread join).json (fun _ => []) =
      .obj [(label, .obj (Json.present (slots (.embed label items () spread join))))] := by
  rw [json]
  simp [slots, Field.slots, Field.plain, Json.present, Json.flag_eq_field?, Json.field?]

theorem Item.same_slots (label label' : String) (i j : Item Unit) :
    (Json.obj [(label, .obj (Json.present i.slots))]).same (.obj [(label', .obj (Json.present j.slots))]) =
      (label == label' && Json.sameSlots i.slots j.slots) := by
  rw [Json.same_singleton, Json.same_present (by rw [keys_slots, keys_slots]) (by rw [keys_slots]; decide)]

theorem Item.sameSlots_field (label label' : String) (f g : Field) :
    Json.sameSlots (slots (.field label f)) (slots (.field label' g)) = (f == g) := by
  simp only [slots, Field.slots, List.cons_append, List.nil_append, Json.sameSlots,
    Json.sameOption_map Json.same_str, Json.sameOption_map Aggregate.same_word]
  obtain ⟨column, path, preCast, aggregate, cast⟩ := f
  obtain ⟨column', path', preCast', aggregate', cast'⟩ := g
  rw [Bool.eq_iff_iff]
  simp [Json.sameOption]

theorem Item.sameSlots_embed (label label' : String) (items items' : List (Item Unit))
    (spread spread' : Bool) (join join' : Option JoinMap) :
    Json.sameSlots (slots (.embed label items () spread join))
        (slots (.embed label' items' () spread' join')) =
      (Json.sameArray (bareItems items) (bareItems items') &&
        (spread == spread' && sameJoins join join')) := by
  have hselect : Json.sameOption (some (.arr (bareItems items))) (some (.arr (bareItems items'))) =
      Json.sameArray (bareItems items) (bareItems items') := by
    simp only [Json.sameOption, Json.same]
  have hspread : Json.sameOption (if spread then some (.bool true) else none)
      (if spread' then some (.bool true) else none) = (spread == spread') := by
    cases spread <;> cases spread' <;> decide
  have hjoin : Json.sameOption (join.map JoinMap.json) (join'.map JoinMap.json) = sameJoins join join' := by
    cases join <;> cases join' <;> simp [Json.sameOption, sameJoins, JoinMap.same_json]
  have hnone : Json.sameOption none none = true := rfl
  simp only [slots, Field.slots, Field.plain, Option.map_none, List.cons_append, List.nil_append,
    Json.sameSlots, hselect, hspread, hjoin, hnone, Bool.true_and, Bool.and_true]

theorem Item.sameSlots_field_embed (label label' : String) (f : Field) (items : List (Item Unit))
    (spread : Bool) (join : Option JoinMap) :
    Json.sameSlots (slots (.field label f)) (slots (.embed label' items () spread join)) = false ∧
      Json.sameSlots (slots (.embed label' items () spread join)) (slots (.field label f)) = false :=
  ⟨rfl, rfl⟩

/-! ## Lists -/

/-- What a string in the JSON of a list tells. -/
def Item.ofText (text : String) : Item Unit := if text = "*" then .star else .column text

mutual
/-- **An entry as its JSON tells it**: a column called `*` is told like the star. -/
def Item.told : Item Unit → Item Unit
  | .star => .star
  | .column name => .ofText name
  | .field label f => .field label f
  | .embed label items note spread join => .embed label (toldAll items) note spread join

/-- The same for the entries of a list. -/
def toldAll : List (Item Unit) → List (Item Unit)
  | [] => []
  | i :: is => i.told :: toldAll is
end

theorem Item.same_ofText (m n : String) : (ofText m).same (ofText n) = (m == n) := by
  unfold ofText
  by_cases hm : m = "*"
  · by_cases hn : n = "*"
    · simp [Item.same, hm, hn]
    · simp [Item.same, hm, hn, Ne.symm hn]
  · by_cases hn : n = "*" <;> simp [Item.same, hm, hn]

theorem Item.same_str_json (m : String) (j : Item Unit) :
    (Json.str m).same (j.json fun _ => []) = (ofText m).same j.told := by
  cases j with
  | star =>
    rw [json, Json.same_str, ← same_ofText]
    rfl
  | column n => rw [json, Json.same_str, told, same_ofText]
  | field label f =>
    unfold ofText
    split <;> simp [json, told, Item.same, Json.same]
  | embed label items note spread join =>
    unfold ofText
    split <;> simp [json, told, Item.same, Json.same]

mutual
/-- **An entry is what its JSON tells**, and nothing else. -/
theorem Item.same_json : ∀ i j : Item Unit,
    (i.json fun _ => []).same (j.json fun _ => []) = i.told.same j.told
  | .star, j => by
    rw [Item.json, Item.same_str_json]
    rfl
  | .column name, j => by rw [Item.json, Item.same_str_json, Item.told]
  | .field label f, .star => by simp [Item.json, Item.told, Item.same, Json.same]
  | .field label f, .column name => by
    rw [Item.json, Item.json, Item.told, Item.told, Item.ofText]
    split <;> simp [Item.same, Json.same]
  | .field label f, .field label' g => by
    rw [Item.json_field, Item.json_field, Item.same_slots, Item.sameSlots_field, Item.told, Item.told,
      Item.same]
  | .field label f, .embed label' items () spread join => by
    rw [Item.json_field, Item.json_embed, Item.same_slots, (Item.sameSlots_field_embed ..).1]
    simp [Item.told, Item.same]
  | .embed label items () spread join, .star => by simp [Item.json, Item.told, Item.same, Json.same]
  | .embed label items () spread join, .column name => by
    rw [Item.json, Item.json, Item.told, Item.told, Item.ofText]
    split <;> simp [Item.same, Json.same]
  | .embed label items () spread join, .field label' g => by
    rw [Item.json_field, Item.json_embed, Item.same_slots, (Item.sameSlots_field_embed ..).2]
    simp [Item.told, Item.same]
  | .embed label items () spread join, .embed label' items' () spread' join' => by
    rw [Item.json_embed, Item.json_embed, Item.same_slots, Item.sameSlots_embed,
      same_bareItems items items', Item.told, Item.told, Item.same, Bool.and_assoc, Bool.and_assoc]

theorem same_bareItems : ∀ is js : List (Item Unit),
    Json.sameArray (bareItems is) (bareItems js) = sameItems (toldAll is) (toldAll js)
  | [], [] => rfl
  | [], _ :: _ => rfl
  | _ :: _, [] => rfl
  | i :: is, j :: js => by
    rw [bareItems, bareItems, itemsJson, itemsJson, Json.sameArray, Item.same_json i j,
      same_bareItems is js]
    rfl
end

/-- **An entry with no column called `*`**, itself or inside it. -/
inductive Item.NamesNoStar : Item Unit → Prop where
  | star : Item.NamesNoStar .star
  | column {name : String} (h : name ≠ "*") : Item.NamesNoStar (.column name)
  | field {label : String} {f : Field} : Item.NamesNoStar (.field label f)
  | embed {label : String} {items : List (Item Unit)} {note : Unit} {spread : Bool}
      {join : Option JoinMap} (h : ∀ i ∈ items, Item.NamesNoStar i) :
      Item.NamesNoStar (.embed label items note spread join)

theorem toldAll_eq_self {items : List (Item Unit)} (h : ∀ i ∈ items, i.told = i) :
    toldAll items = items := by
  induction items with
  | nil => rfl
  | cons i is ih =>
    rw [List.forall_mem_cons] at h
    rw [toldAll, h.1, ih h.2]

theorem Item.NamesNoStar.told_eq_self {i : Item Unit} (h : i.NamesNoStar) : i.told = i := by
  induction h with
  | star => rfl
  | column h => rw [told, ofText, if_neg h]
  | field => rfl
  | embed h ih => rw [told, toldAll_eq_self ih]

/-! ## Texts -/

mutual
theorem Node.distinctKeys_json : ∀ n : Node, (n.item.json fun _ => []).DistinctKeys
  | .star => by simp [Node.item, Item.json]
  | .column name => by simp [Node.item, Item.json]
  | .field label f => by
    simp [Node.item, Item.json, Json.distinctKeys_obj_iff, Entries.keys, f.distinctKeys_json]
  | .embed label join spread nodes => by
    have hitems := Json.distinctKeys_arr_iff.mpr (distinctKeys_bareItems nodes)
    have hjoins : ∀ j, joins? nodes = some j → j.json.DistinctKeys := by
      intro j hj
      rw [JoinMap.distinctKeys_json_iff]
      obtain rfl : joins nodes = j := by
        unfold joins? at hj
        split at hj
        · simp at hj
        · rename_i heq
          rw [heq]
          exact Option.some.inj hj
      exact Entries.nodup_keys_ofList _
    have hn : (Entries.keys (Item.slots (.embed label (itemsOf nodes) () spread (joins? nodes)))).Nodup := by
      rw [Item.keys_slots]
      decide
    rw [Node.item, Item.json_embed, Json.distinctKeys_obj_iff]
    refine ⟨by simp [Entries.keys], ?_⟩
    rw [List.forall_mem_singleton, Json.distinctKeys_present_iff hn]
    simpa [Item.slots, Field.slots, Field.plain, hitems] using hjoins

theorem distinctKeys_bareItems : ∀ nodes : List Node, ∀ v ∈ bareItems (itemsOf nodes), v.DistinctKeys
  | [] => by simp [bareItems, itemsOf, itemsJson]
  | n :: ns => by
    rw [bareItems, itemsOf, itemsJson, List.forall_mem_cons]
    exact ⟨n.distinctKeys_json, distinctKeys_bareItems ns⟩
end

/-- **The JSON of a list.** -/
def Selection.wire (sel : Selection) : Json := .arr (bareItems sel.items)

/-- **Two texts whose lists have the same JSON** say the same list, but for columns called `*`, which are told
like the star. Without such columns they say the same list. -/
theorem same_wire_of_parse {text text' : Option String} {sel sel' : Selection} (h : parse text = .ok sel)
    (h' : parse text' = .ok sel') :
    (sel.wire.DistinctKeys ∧ sel'.wire.DistinctKeys) ∧
      sel.wire.same sel'.wire = sameItems (toldAll sel.items) (toldAll sel'.items) ∧
      ((∀ i ∈ sel.items, i.NamesNoStar) → (∀ i ∈ sel'.items, i.NamesNoStar) →
        sel.wire.same sel'.wire = sameItems sel.items sel'.items) := by
  obtain ⟨nodes, -, rfl⟩ := Refusal.map_eq_ok.mp h
  obtain ⟨nodes', -, rfl⟩ := Refusal.map_eq_ok.mp h'
  have hsame : (Selection.ofNodes nodes).wire.same (Selection.ofNodes nodes').wire =
      sameItems (toldAll (itemsOf nodes)) (toldAll (itemsOf nodes')) := by
    rw [Selection.wire, Selection.wire, Json.same]
    exact same_bareItems _ _
  refine ⟨⟨?_, ?_⟩, hsame, fun hnone hnone' => ?_⟩
  · exact Json.distinctKeys_arr_iff.mpr (distinctKeys_bareItems nodes)
  · exact Json.distinctKeys_arr_iff.mpr (distinctKeys_bareItems nodes')
  · have htold := toldAll_eq_self fun i hi => (hnone i hi).told_eq_self
    have htold' := toldAll_eq_self fun i hi => (hnone' i hi).told_eq_self
    rw [hsame]
    exact congrArg₂ sameItems htold htold'

/-- Embeds that are joined in different ways. -/
theorem same_wire_of_parse_joins :
    ∃ sel sel', parse (some "id,a!inner(*)") = .ok sel ∧ parse (some "id,a(*)") = .ok sel' ∧
      (sel.wire.DistinctKeys ∧ sel'.wire.DistinctKeys) ∧
      sel.wire.same sel'.wire = sameItems (toldAll sel.items) (toldAll sel'.items) ∧
      sel.wire.same sel'.wire = sameItems sel.items sel'.items := by
  have h : parse (some "id,a!inner(*)") = .ok (.ofNodes
      [.column "id", .embed "a" ⟨none, .inner, none⟩ false [.star]]) := by cbv
  have h' : parse (some "id,a(*)") = .ok (.ofNodes
      [.column "id", .embed "a" .plain false [.star]]) := by cbv
  obtain ⟨hdistinct, htold, hsame⟩ := same_wire_of_parse h h'
  refine ⟨_, _, h, h', hdistinct, htold, hsame ?_ ?_⟩
  all_goals
    simp only [Selection.ofNodes, itemsOf, Node.item, List.forall_mem_cons]
    refine ⟨.column (by decide), .embed ?_, by simp⟩
    rw [List.forall_mem_singleton]
    exact .star

/-- The star and a column called `*` have the same JSON. -/
theorem exists_same_wire_ne :
    ∃ sel sel', parse (some "*") = .ok sel ∧ parse (some "\"*\"") = .ok sel' ∧
      sameItems sel.items sel'.items = false ∧ sel.wire.same sel'.wire = true := by
  refine ⟨.ofNodes [.star], .ofNodes [.column "*"], by cbv, by cbv, ?_, ?_⟩
  · simp [Selection.ofNodes, itemsOf, Node.item, sameItems, Item.same]
  · simp [Selection.ofNodes, Selection.wire, itemsOf, Node.item, bareItems, itemsJson, Item.json,
      Json.same, Json.sameArray]

end ResourceQuery.Select
