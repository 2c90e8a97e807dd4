import Mathlib.Data.List.Perm.Basic
import ResourceQuery.Statement.Basic

/-! # Preferences over several headers, and in another order

The values of a header that comes several times are read with commas between them. A comma cuts no directive
of either side, so the preferences are those of each value, one value after the other (`prefer_ofRequest`).

Each key of a preference has a part of `Meta` for itself, so two preferences of different keys are taken in
either order (`Meta.prefer_comm`). A fold whose steps commute so does not see how the elements of one key
are mixed with those of another (`foldl_rearranged`). -/

namespace ResourceQuery

namespace Preference

/-! ## Several values -/

theorem ofChars?_cons_blank {c : Char} (hc : Text.isBlank c = true) (cs : List Char) :
    ofChars? (c :: cs) = ofChars? cs := by
  have htrim : Text.trim (c :: cs) = Text.trim cs := by
    rw [Text.trim, Text.trim, Text.trimStart, Text.trimStart, List.dropWhile_cons_of_pos hc]
  rw [ofChars?, ofChars?, htrim]

theorem parseAll_append (v w : String) :
    parseAll (v ++ ", " ++ w) = parseAll v ++ parseAll w := by
  have htext : (v ++ ", " ++ w).toList = v.toList ++ ',' :: ' ' :: w.toList := by simp
  obtain ⟨p, ps, hw, hblank⟩ := Text.splitOn_cons_of_ne (show ' ' ≠ ',' by decide) w.toList
  rw [parseAll, htext, Text.splitOn_append_cons, List.filterMap_append, hblank, parseAll, parseAll, hw,
    List.filterMap_cons, List.filterMap_cons, ofChars?_cons_blank (by decide)]

theorem parseAll_intercalate {vs : List String} (hne : vs ≠ []) :
    parseAll (String.intercalate ", " vs) = vs.flatMap parseAll := by
  induction vs with
  | nil => exact absurd rfl hne
  | cons v vs ih =>
    cases vs with
    | nil => simp
    | cons w ws =>
      rw [String.intercalate_cons_cons, parseAll_append, ih (List.cons_ne_nil w ws)]
      rfl

end Preference

/-- **The preferences of a request** are those of each header of this name, in the order of the headers. -/
theorem RequestHeaders.prefer_ofRequest (r : Request) (m : Method) :
    (ofRequest r m).prefer =
      (r.headers.filter fun h => Request.sameName h.1 "prefer").flatMap fun h =>
        Preference.parseAll h.2 := by
  have hvalues : (r.headers.filter fun h => Request.sameName h.1 "prefer").flatMap
      (fun h => Preference.parseAll h.2) = (r.headerValues "prefer").flatMap Preference.parseAll := by
    rw [Request.headerValues, List.flatMap_map]
  have hprefer : (ofRequest r m).prefer =
      ((r.header? "prefer").map Preference.parseAll).getD [] := rfl
  rw [hvalues, hprefer, Request.header?]
  cases r.headerValues "prefer" with
  | nil => rfl
  | cons v vs => exact Preference.parseAll_intercalate (List.cons_ne_nil v vs)

/-! ## Another order -/

namespace Preference

/-- **The same preferences in another order**, where those of a key keep theirs. -/
def Rearranged (ps qs : List Preference) : Prop :=
  ps.Perm qs ∧ ∀ key, (ps.filter fun p => p.key = key) = qs.filter fun p => p.key = key

theorem rearranged_iff {ps qs : List Preference} :
    Rearranged ps qs ↔ ps.Perm qs ∧ ∀ key ∈ ps.map Preference.key,
      (ps.filter fun p => p.key = key) = qs.filter fun p => p.key = key := by
  refine and_congr_right fun hperm => ⟨fun h key _ => h key, fun h key => ?_⟩
  by_cases hkey : key ∈ ps.map Preference.key
  · exact h key hkey
  · have hkey' : key ∉ qs.map Preference.key := fun hmem => hkey ((hperm.map _).mem_iff.mpr hmem)
    have none_of : ∀ rs : List Preference, key ∉ rs.map Preference.key →
        (rs.filter fun p => p.key = key) = [] := by
      intro rs hrs
      refine List.filter_eq_nil_iff.mpr fun p hp => ?_
      simpa using fun h => hrs (List.mem_map.mpr ⟨p, hp, h⟩)
    rw [none_of ps hkey, none_of qs hkey']

instance (ps qs : List Preference) : Decidable (Rearranged ps qs) :=
  decidable_of_iff _ rearranged_iff.symm

end Preference

section Fold

variable {α β κ : Type} {key : α → κ} {f : β → α → β}
  (hcomm : ∀ b x y, key x ≠ key y → f (f b x) y = f (f b y) x)

include hcomm

/-- A step is taken before those of other keys as well as after them. -/
theorem foldl_append_cons {x : α} {as : List α} (h : ∀ a ∈ as, key a ≠ key x) (bs : List α) (b : β) :
    (as ++ x :: bs).foldl f b = (x :: (as ++ bs)).foldl f b := by
  induction as generalizing b with
  | nil => rfl
  | cons a as ih =>
    have ih := ih (fun a' ha' => h a' (List.mem_cons_of_mem a ha')) (f b a)
    rw [List.cons_append, List.foldl_cons, ih, List.foldl_cons, hcomm b a x (h a List.mem_cons_self)]
    rfl

/-- **A fold does not see how the elements of different keys are mixed.** -/
theorem foldl_rearranged [DecidableEq κ] {as bs : List α}
    (h : ∀ k, (as.filter fun a => key a = k) = bs.filter fun a => key a = k) (b : β) :
    as.foldl f b = bs.foldl f b := by
  induction as generalizing bs b with
  | nil =>
    have hnil : bs = [] := by
      refine List.eq_nil_iff_forall_not_mem.mpr fun x hx => ?_
      have hmem : x ∈ bs.filter fun a => key a = key x := List.mem_filter.mpr ⟨hx, by simp⟩
      simp [← h] at hmem
    rw [hnil]
  | cons x as ih =>
    -- the first element of this key in the other list is the same one
    have hx := h (key x)
    rw [List.filter_cons_of_pos (by simp)] at hx
    obtain ⟨bs₁, bs₂, rfl, hbefore, -, hafter⟩ := List.filter_eq_cons_iff.mp hx.symm
    have hother : ∀ a ∈ bs₁, key a ≠ key x := fun a ha => by simpa using hbefore a ha
    rw [foldl_append_cons hcomm hother, List.foldl_cons, List.foldl_cons]
    refine ih (fun k => ?_) (f b x)
    by_cases hk : key x = k
    · subst hk
      have hnone : (bs₁.filter fun a => key a = key x) = [] :=
        List.filter_eq_nil_iff.mpr hbefore
      rw [List.filter_append, hnone, List.nil_append, hafter]
    · have hk' := h k
      rw [List.filter_cons_of_neg (by simpa using hk), List.filter_append,
        List.filter_cons_of_neg (by simpa using hk)] at hk'
      rw [hk', List.filter_append]

end Fold

namespace Meta

theorem prefer_comm (m : Meta) {p q : Preference} (h : p.key ≠ q.key) :
    (m.prefer p).prefer q = (m.prefer q).prefer p := by
  -- either the keys are the same, or the parts of the answer are not
  rcases p with _ | _ | _ | (_ | _) | _ | _ | _ | _ | _ | _ <;>
    rcases q with _ | _ | _ | (_ | _) | _ | _ | _ | _ | _ | _ <;>
      first
      | rfl
      | exact absurd rfl h

end Meta

/-- **Preferences may be spread over several headers, and put in another order** among those of other keys:
they are read header by header, and what is made of them stays the same. -/
theorem RequestHeaders.prefer_spread_rearranged :
    (∀ (r : Request) (m : Method), (ofRequest r m).prefer =
      (r.headers.filter fun h => Request.sameName h.1 "prefer").flatMap fun h =>
        Preference.parseAll h.2) ∧
    ∀ (headers : RequestHeaders) (ps : List Preference), Preference.Rearranged headers.prefer ps →
      ∀ (params : QueryParams) (method : Method) (target : Target),
        Meta.ofRequest { headers with prefer := ps } params method =
          Meta.ofRequest headers params method ∧
        StatementKind.ofRequest target method { headers with prefer := ps } =
          StatementKind.ofRequest target method headers ∧
        Upsert.ofRequest params { headers with prefer := ps } = Upsert.ofRequest params headers := by
  refine ⟨prefer_ofRequest, fun headers ps h params method target => ⟨?_, ?_, ?_⟩⟩
  · have hfold : headers.prefer.foldl Meta.prefer .empty = ps.foldl Meta.prefer .empty :=
      foldl_rearranged (fun m _ _ hkey => Meta.prefer_comm m hkey) h.2 .empty
    simp only [Meta.ofRequest, hfold]
  · have hany : ∀ key, prefers key { headers with prefer := ps } = prefers key headers :=
      fun key => (h.1.any_eq).symm
    simp only [StatementKind.ofRequest, hany]
  · have hmem : ps.contains (.resolution .ignoreDuplicates) =
        headers.prefer.contains (.resolution .ignoreDuplicates) := h.1.contains_eq.symm
    simp only [Upsert.ofRequest, hmem]

/-- Two counts and a malformed one keep their order, while others come to stand between them. -/
theorem RequestHeaders.prefer_spread_rearranged_counts :
    let headers : RequestHeaders := ⟨none, [.count .exact, .other "count" "all", .count .planned,
      .tx .rollback, .resolution .ignoreDuplicates], defaultAccept⟩
    let ps : List Preference := [.resolution .ignoreDuplicates, .count .exact, .tx .rollback,
      .other "count" "all", .count .planned]
    Preference.Rearranged headers.prefer ps ∧
      Meta.ofRequest { headers with prefer := ps } .empty .post = Meta.ofRequest headers .empty .post ∧
      StatementKind.ofRequest (.relation none) .post { headers with prefer := ps } =
        StatementKind.ofRequest (.relation none) .post headers ∧
      Upsert.ofRequest .empty { headers with prefer := ps } = Upsert.ofRequest .empty headers := by
  intro headers ps
  have h : Preference.Rearranged headers.prefer ps := by decide
  exact ⟨h, prefer_spread_rearranged.2 headers ps h .empty .post (.relation none)⟩

end ResourceQuery
