import ResourceQuery.Entries

/-! # Query parameters

The pairs of a query string, gathered by key: keys in the order in which they first came, the values of
a key in their order. There is no key without a value.

* `entries_push`: a further pair goes to the end of its key's values.
* `ofPairs`: a list of pairs, one after the other. -/

namespace ResourceQuery

/-- **Query parameters.** -/
structure QueryParams where
  entries : List (String × List String)
  nodup_keys : (Entries.keys entries).Nodup
  values_ne_nil : ∀ e ∈ entries, e.2 ≠ []

namespace QueryParams

/-- A value put after those of a key. -/
def append (value : String) (values : Option (List String)) : List String :=
  values.getD [] ++ [value]

theorem mem_update_ne_nil {key value : String} {es : List (String × List String)}
    (h : ∀ e ∈ es, e.2 ≠ []) : ∀ e ∈ Entries.update key (append value) es, e.2 ≠ [] := by
  induction es with
  | nil =>
    intro e he
    simp only [Entries.update, List.mem_singleton] at he
    simp [he, append]
  | cons f fs ih =>
    have ih := ih fun e he => h e (by simp [he])
    intro e he
    by_cases hf : f.1 = key
    · simp only [Entries.update, hf, if_true, List.mem_cons] at he
      rcases he with rfl | he
      · simp [append]
      · exact h e (by simp [he])
    · simp only [Entries.update, hf, if_false, List.mem_cons] at he
      rcases he with rfl | he
      · exact h e (by simp)
      · exact ih e he

/-- No parameters. -/
def empty : QueryParams := ⟨[], by simp, by simp⟩

/-- **One more pair.** -/
def push (key value : String) (p : QueryParams) : QueryParams :=
  ⟨Entries.update key (append value) p.entries, Entries.nodup_keys_update p.nodup_keys,
    mem_update_ne_nil p.values_ne_nil⟩

/-- The parameters that a list of pairs makes. -/
def ofPairs (pairs : List (String × String)) : QueryParams :=
  pairs.foldl (fun p e => p.push e.1 e.2) empty

/-- The values of a key. -/
def get? (key : String) (p : QueryParams) : Option (List String) := Entries.get? key p.entries

/-- The first value of a key. -/
def first? (key : String) (p : QueryParams) : Option String := (p.get? key).bind List.head?

/-- The number of keys. -/
def size (p : QueryParams) : Nat := p.entries.length

/-- Whether there are no parameters. -/
def isEmpty (p : QueryParams) : Bool := p.entries.isEmpty

/-- The pairs, key by key. -/
def pairs (p : QueryParams) : List (String × String) :=
  p.entries.flatMap fun e => e.2.map fun v => (e.1, v)

/-- The parameters less the pairs that do not satisfy `keep`. -/
def filter (keep : String → String → Bool) (p : QueryParams) : QueryParams :=
  ofPairs (p.pairs.filter fun e => keep e.1 e.2)

theorem entries_push (key value : String) (p : QueryParams) :
    (p.push key value).entries = Entries.update key (append value) p.entries := rfl

end QueryParams

/-- The keys that never carry a filter. -/
def reservedKeys : List String := ["select", "order", "limit", "offset", "on_conflict", "columns"]

/-- Whether a key never carries a filter. -/
def isReserved (key : String) : Bool := reservedKeys.contains key

/-- The keys that order and cut a result, also behind the labels of an embed. -/
def windowKeys : List String := ["order", "limit", "offset"]

/-- Whether a key orders or cuts a result. -/
def isWindowKey (key : String) : Bool := windowKeys.contains key

end ResourceQuery
