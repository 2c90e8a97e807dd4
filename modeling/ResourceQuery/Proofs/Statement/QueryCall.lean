import ResourceQuery.Call
import ResourceQuery.Proofs.Rearranged
import ResourceQuery.Proofs.Statement.Places
import ResourceQuery.Proofs.Statement.WellFormed

/-! # Calls in the query string

A parameter of a call in the query string is an argument if its first value does not look like a filter
(`get?_arguments`), and each of its values that does is left to the filters (`mem_filterParams`). So the
first value is the one or the other (`get?_filterParams`). The statement has these arguments (`call_eq`), and
its filters are read from what is left (`filters_of_call`). -/

namespace ResourceQuery

namespace Call

variable {params : QueryParams} {key value : String}

theorem argument?_eq_some {e : String × List String} {a : String × Json} (h : argument? e = some a) :
    a.1 = e.1 := by
  unfold argument? at h
  split at h
  · simp at h
  · split at h
    · simp at h
    · obtain rfl := Option.some.inj h
      rfl

/-- **Which parameters are arguments**, and which ones they are. -/
theorem get?_arguments (hkey : isReserved key = false) (hfirst : params.first? key = some value) :
    Entries.get? key (arguments params) =
      if looksLikeFilter value then Option.none else some (Scalar.coerce value) := by
  obtain ⟨values, hvalues⟩ := QueryParams.first?_eq_some.mp hfirst
  rw [QueryParams.get?] at hvalues
  rw [arguments, Entries.get?_filterMap (fun _ _ => argument?_eq_some) params.nodup_keys, hvalues,
    Option.bind_some, argument?]
  dsimp only
  rw [hkey, Bool.false_or]
  cases looksLikeFilter value <;> rfl

theorem args_ofParams {args : List (String × Json)} :
    (ofParams params).args = some (.obj args) ↔ arguments params = args ∧ args ≠ [] := by
  unfold ofParams
  cases arguments params with
  | nil => simp [eq_comm]
  | cons a as =>
    simp only [Option.some.injEq, Json.obj.injEq]
    exact ⟨fun h => ⟨h, by simp [← h]⟩, And.left⟩

theorem mem_filterParams : (key, value) ∈ (filterParams params).pairs ↔
    (key, value) ∈ params.pairs ∧ (isReserved key = true ∨ looksLikeFilter value = true) := by
  rw [filterParams, QueryParams.mem_pairs_filter, Bool.or_eq_true]

/-- **A first value is left to the filters** if it looks like one, and is their first one then. -/
theorem get?_filterParams (hkey : isReserved key = false) (hfirst : params.first? key = some value) :
    (∃ values, (filterParams params).get? key = some (value :: values)) ↔ looksLikeFilter value = true := by
  obtain ⟨values, hvalues⟩ := QueryParams.first?_eq_some.mp hfirst
  have hkeep : (fun v => isReserved key || looksLikeFilter v) = looksLikeFilter := by
    funext v
    rw [hkey, Bool.false_or]
  rw [filterParams, QueryParams.get?_filter, hvalues, Option.getD_some, hkeep]
  constructor
  · rintro ⟨rest, h⟩
    have hmem : value ∈ (value :: values).filter looksLikeFilter := by
      cases hkept : (value :: values).filter looksLikeFilter with
      | nil => simp [hkept] at h
      | cons v vs =>
        rw [hkept] at h
        rw [(List.cons.inj (Option.some.inj h)).1]
        exact List.mem_cons_self
    exact (List.mem_filter.mp hmem).2
  · intro h
    rw [List.filter_cons_of_pos h]
    exact ⟨_, rfl⟩

end Call

/-! ## The statement of a call -/

namespace Parts

namespace ReadFrom

variable {basePath : String} {r : Request} {p : Parts} (hread : p.ReadFrom { basePath } r)
  (hcall : (p.target { basePath }).isCall = true) (hmethod : r.method ≠ .post)

include hcall hmethod in
theorem call_eq : (p.statement { basePath } r).call = Call.ofParams (p.params { basePath }) := by
  have hkind : p.kind { basePath } r = .call := StatementKind.ofRequest_eq_call_iff.mpr hcall
  show Translator.call { basePath } (p.kind { basePath } r) (p.target { basePath }) r.method
    (p.params { basePath }) p.payload = _
  rw [Translator.call, if_pos hkind]
  show Call.ofRequest _ _ _ _ = _
  unfold Call.ofRequest
  rw [hcall, if_neg hmethod]
  rfl

include hread hcall hmethod in
theorem filters_of_call : Filters.ofParams (Call.filterParams (p.params { basePath }))
    p.selection.aliases = .ok p.filters := by
  have hfilters := hread.filters
  have hquery : Call.fromQuery (p.target { basePath }) r.method = true := by
    simp [Call.fromQuery, hcall, hmethod]
  rw [Translator.filterParams, if_pos hquery] at hfilters
  exact hfilters

end ReadFrom

end Parts

end ResourceQuery
