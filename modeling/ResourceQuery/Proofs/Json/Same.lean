import Mathlib.Data.List.Perm.Subperm
import ResourceQuery.Proofs.Json.Distinct

/-! # The same value

Two trees are the same value if they differ in nothing but the order of an object's fields (`same`). Objects
have as many fields, and each one is found in the other with the same value; that is what it should be for
objects that name no key twice.

Objects with a place for each of the same keys are the same value if they are so place by place
(`same_present`): as many places are taken in both, so none is taken in one of them only. -/

namespace ResourceQuery.Json

mutual
/-- **Whether two trees are the same value.** The order of an object's fields does not matter. -/
def same : Json → Json → Bool
  | .null, .null => true
  | .bool a, .bool b => a == b
  | .int m, .int n => m == n
  | .double x, .double y => x == y
  | .str s, .str t => s == t
  | .arr vs, .arr ws => sameArray vs ws
  | .obj fs, .obj gs => fs.length == gs.length && sameWithin fs gs
  | _, _ => false

/-- Whether two arrays have the same items. -/
def sameArray : List Json → List Json → Bool
  | [], [] => true
  | v :: vs, w :: ws => v.same w && sameArray vs ws
  | _, _ => false

/-- Whether all fields are among others, with the same values. -/
def sameWithin : List (String × Json) → List (String × Json) → Bool
  | [], _ => true
  | (k, v) :: fs, gs =>
    (match Entries.get? k gs with
      | some w => v.same w
      | none => false) && sameWithin fs gs
end

/-- Whether what is in two places is the same. -/
def sameOption : Option Json → Option Json → Bool
  | none, none => true
  | some v, some w => v.same w
  | _, _ => false

/-- Whether what is in the places of two objects is the same. -/
def sameSlots : List (String × Option Json) → List (String × Option Json) → Bool
  | [], [] => true
  | s :: ss, s' :: ss' => sameOption s.2 s'.2 && sameSlots ss ss'
  | _, _ => false

theorem sameOption_map {α : Type} [DecidableEq α] {f : α → Json}
    (hf : ∀ a b, (f a).same (f b) = (a == b)) (o o' : Option α) :
    sameOption (o.map f) (o'.map f) = (o == o') := by
  cases o <;> cases o' <;> simp [sameOption, hf]

theorem same_str (s t : String) : (str s).same (str t) = (s == t) := by rw [same]

theorem same_singleton (k l : String) (v w : Json) :
    (obj [(k, v)]).same (obj [(l, w)]) = (k == l && v.same w) := by
  by_cases hk : k = l
  · simp [same, sameWithin, Entries.get?_cons, hk]
  · simp [same, sameWithin, Entries.get?_cons, hk, Ne.symm hk]

/-! ## Objects -/

theorem sameWithin_cons {fs gs : List (String × Json)} {k : String} {w : Json} (h : k ∉ Entries.keys fs) :
    sameWithin fs ((k, w) :: gs) = sameWithin fs gs := by
  induction fs with
  | nil => rfl
  | cons f fs ih =>
    obtain ⟨l, v⟩ := f
    rw [Entries.keys_cons, List.mem_cons, not_or] at h
    rw [sameWithin, sameWithin, ih h.2, Entries.get?_cons, if_neg h.1]

theorem keys_subset_of_sameWithin {fs gs : List (String × Json)} (h : sameWithin fs gs = true) :
    Entries.keys fs ⊆ Entries.keys gs := by
  induction fs with
  | nil => simp
  | cons f fs ih =>
    obtain ⟨k, v⟩ := f
    rw [sameWithin, Bool.and_eq_true] at h
    have hk : k ∈ Entries.keys gs := by
      by_contra hk
      rw [Entries.get?_eq_none_iff.mpr hk] at h
      simp at h
    rw [Entries.keys_cons]
    exact List.cons_subset.mpr ⟨hk, ih h.2⟩

theorem length_le_of_sameWithin {fs gs : List (String × Json)} (hn : (Entries.keys fs).Nodup)
    (h : sameWithin fs gs = true) : fs.length ≤ gs.length := by
  have hlength := (hn.subperm (keys_subset_of_sameWithin h)).length_le
  simpa [Entries.keys] using hlength

/-- **Objects with a place for each of the same keys** are compared place by place. -/
theorem same_present {ss ss' : List (String × Option Json)} (hkeys : Entries.keys ss = Entries.keys ss')
    (hn : (Entries.keys ss).Nodup) : (obj (present ss)).same (obj (present ss')) = sameSlots ss ss' := by
  induction ss generalizing ss' with
  | nil =>
    cases ss' with
    | nil => rfl
    | cons s' ss' => simp at hkeys
  | cons s ss ih =>
    cases ss' with
    | nil => simp at hkeys
    | cons s' ss' =>
      obtain ⟨k, o⟩ := s
      obtain ⟨k', o'⟩ := s'
      simp only [Entries.keys_cons, List.cons.injEq] at hkeys
      obtain ⟨rfl, hkeys⟩ := hkeys
      rw [Entries.keys_cons, List.nodup_cons] at hn
      have ih := ih hkeys hn.2
      have hfresh : k ∉ Entries.keys (present ss) := fun h => hn.1 ((keys_present_sublist ss).subset h)
      have hfresh' : k ∉ Entries.keys (present ss') :=
        fun h => hn.1 (hkeys ▸ (keys_present_sublist ss').subset h)
      have hpresent : ∀ v ts, present ((k, some v) :: ts) = (k, v) :: present ts := fun _ _ => rfl
      have habsent : ∀ ts, present ((k, none) :: ts) = present ts := fun _ => rfl
      rw [same] at ih ⊢
      rw [sameSlots]
      cases o with
      | none =>
        cases o' with
        | none =>
          rw [habsent, habsent, ih]
          rfl
        | some w =>
          -- as many fields as the second has, but all among the others of it
          have hnone : sameOption none (some w) = false := rfl
          rw [habsent, hpresent, sameWithin_cons hfresh, hnone, Bool.false_and, Bool.and_eq_false_imp]
          intro hlength
          cases hwithin : sameWithin (present ss) (present ss') with
          | false => rfl
          | true =>
            have := length_le_of_sameWithin (hn.2.sublist (keys_present_sublist ss)) hwithin
            rw [beq_iff_eq, List.length_cons] at hlength
            omega
      | some v =>
        cases o' with
        | none =>
          rw [hpresent, habsent, sameWithin, Entries.get?_eq_none_iff.mpr hfresh']
          simp [sameOption]
        | some w =>
          have hsome : sameOption (some v) (some w) = v.same w := rfl
          have hlength : (((k, v) :: present ss).length == ((k, w) :: present ss').length) =
              ((present ss).length == (present ss').length) := by simp
          rw [hpresent, hpresent, hlength, sameWithin, sameWithin_cons hfresh, Entries.get?_cons,
            if_pos rfl, hsome, ← ih]
          exact Bool.and_left_comm _ _ _

end ResourceQuery.Json
