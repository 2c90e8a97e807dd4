import ResourceQuery.Entries
import ResourceQuery.Number.Binary64

/-! # JSON values

A value with its objects in order. The tree is that of a *text*: an object may name a key more than
once, as a text may. `collapse` is what an ordinary reader makes of it, who keeps each key at its
first place with its last value.

* `DistinctKeys`: no object names a key twice, at any depth.
* `collapse_eq_self`: such a tree is read as it stands. -/

namespace ResourceQuery

/-- **A JSON text's tree.** A number is a whole number or a double, never both. -/
inductive Json where
  | null
  | bool (b : Bool)
  | int (n : Int)
  | double (x : Binary64)
  | str (s : String)
  | arr (items : List Json)
  | obj (fields : List (String × Json))
deriving Inhabited

namespace Json

/-- Whether the value is an array. -/
def isArray : Json → Bool
  | arr _ => true
  | _ => false

/-- Whether the value is an object. -/
def isObject : Json → Bool
  | obj _ => true
  | _ => false

/-- A field that is present only with a value. -/
def field? (key : String) : Option Json → List (String × Json)
  | some v => [(key, v)]
  | none => []

/-- A flag that is present only when set. -/
def flag (key : String) (b : Bool) : List (String × Json) :=
  if b then [(key, bool true)] else []

mutual
/-- **What an ordinary reader keeps**: each key at its first place, with its last value. -/
def collapse : Json → Json
  | arr items => arr (collapseItems items)
  | obj fields => obj (Entries.ofList (collapseFields fields))
  | v => v

/-- The same for the items of an array. -/
def collapseItems : List Json → List Json
  | [] => []
  | v :: vs => collapse v :: collapseItems vs

/-- The same for the values of an object's fields. -/
def collapseFields : List (String × Json) → List (String × Json)
  | [] => []
  | (k, v) :: fs => (k, collapse v) :: collapseFields fs
end

mutual
/-- **No object names a key twice.** -/
def DistinctKeys : Json → Prop
  | arr items => DistinctItems items
  | obj fields => (Entries.keys fields).Nodup ∧ DistinctFields fields
  | _ => True

/-- The same for every item. -/
def DistinctItems : List Json → Prop
  | [] => True
  | v :: vs => DistinctKeys v ∧ DistinctItems vs

/-- The same for every field's value. -/
def DistinctFields : List (String × Json) → Prop
  | [] => True
  | (_, v) :: fs => DistinctKeys v ∧ DistinctFields fs
end

/-! ## Reading a tree with distinct keys -/

mutual
theorem collapse_eq_self : ∀ {v : Json}, DistinctKeys v → collapse v = v
  | .null, _ | .bool _, _ | .int _, _ | .double _, _ | .str _, _ => by simp [collapse]
  | .arr items, h => by
    rw [DistinctKeys] at h
    rw [collapse, collapseItems_eq_self h]
  | .obj fields, h => by
    rw [DistinctKeys] at h
    rw [collapse, collapseFields_eq_self h.2, Entries.ofList_of_nodup h.1]

theorem collapseItems_eq_self : ∀ {vs : List Json}, DistinctItems vs → collapseItems vs = vs
  | [], _ => rfl
  | v :: vs, h => by
    rw [DistinctItems] at h
    rw [collapseItems, collapse_eq_self h.1, collapseItems_eq_self h.2]

theorem collapseFields_eq_self :
    ∀ {fs : List (String × Json)}, DistinctFields fs → collapseFields fs = fs
  | [], _ => rfl
  | (k, v) :: fs, h => by
    rw [DistinctFields] at h
    rw [collapseFields, collapse_eq_self h.1, collapseFields_eq_self h.2]
end

end Json

end ResourceQuery
