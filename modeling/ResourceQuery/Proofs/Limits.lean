import Mathlib
import ResourceQuery.Proofs.Number.Numerals
import ResourceQuery.Proofs.Windows

/-! # Limits and offsets

A limit or an offset is the number that the first value of its key says, or the whole request is refused
(`numbered_ofParams`). What it is for a text to say a number is laid down here without the reader
(`Window.Says`), and the reader is shown to agree (`count?_eq_some`).

No key overwrites what another one said: a key leads to one place, under one name, and no second one leads to
that place under that name (`get?_routed`). An embed has a window exactly if a key leads to it
(`mem_keys_embedded`). The error is that of the first key, in the order of the keys, whose value says no
number. -/

namespace ResourceQuery

/-! ## Numbers -/

/-- The value of a decimal digit. -/
def digitValue (c : Char) : Nat := c.toNat - '0'.toNat

/-- **Digits are read in base ten**, the last one first. -/
theorem digitsValue_eq_ofDigits (ds : List Char) :
    digitsValue ds = Nat.ofDigits 10 (ds.reverse.map digitValue) := by
  have key : ∀ rs : List Char, rs.foldr (fun d n => 10 * n + (d.toNat - 48)) 0 =
      Nat.ofDigits 10 (rs.map digitValue) := by
    intro rs
    induction rs with
    | nil => rfl
    | cons d rs ih =>
      rw [List.foldr_cons, ih, List.map_cons, Nat.ofDigits_cons, Nat.add_comm]
      rfl
  rw [digitsValue, ← List.foldr_reverse, key]

theorem fitsUInt64_iff {n : Nat} : fitsUInt64 n = true ↔ n < 2 ^ 64 := by simp [fitsUInt64]

namespace Window

/-- **Digits that are a number of 64 bits.** -/
structure Number (ds : List Char) (n : Nat) : Prop where
  ne_nil : ds ≠ []
  digits : ∀ c ∈ ds, '0' ≤ c ∧ c ≤ '9'
  value : Nat.ofDigits 10 (ds.reverse.map digitValue) = n
  small : n < 2 ^ 64

/-- **A text says a number**: its digits, after a plus sign or not. -/
def Says (cs : List Char) (n : Nat) : Prop := Number cs n ∨ ∃ ds, cs = '+' :: ds ∧ Number ds n

theorem number_iff {ds : List Char} {n : Nat} :
    (if ds ≠ [] ∧ ds.all Char.isDigit ∧ fitsUInt64 (digitsValue ds) then some (digitsValue ds)
      else none) = some n ↔ Number ds n := by
  simp only [fitsUInt64_iff, List.all_eq_true, isDigit_iff, digitsValue_eq_ofDigits,
    Option.ite_none_right_eq_some, Option.some.injEq]
  constructor
  · rintro ⟨⟨hne, hdigits, hlt⟩, rfl⟩
    exact ⟨hne, hdigits, rfl, hlt⟩
  · rintro ⟨hne, hdigits, rfl, hlt⟩
    exact ⟨⟨hne, hdigits, hlt⟩, rfl⟩

theorem unsigned?_eq_some {cs : List Char} {n : Nat} : unsigned? cs = some n ↔ Says cs n := by
  by_cases hsign : ∃ ds, cs = '+' :: ds
  · obtain ⟨ds, rfl⟩ := hsign
    have hplus : ¬Number ('+' :: ds) n := fun h =>
      absurd (h.digits '+' List.mem_cons_self) (by decide)
    refine number_iff.trans ⟨fun h => .inr ⟨ds, rfl, h⟩, ?_⟩
    rintro (h | ⟨ds', hds, h⟩)
    · exact absurd h hplus
    · obtain ⟨-, rfl⟩ := List.cons.inj hds
      exact h
  · have hdigits : unsigned? cs = if cs ≠ [] ∧ cs.all Char.isDigit ∧ fitsUInt64 (digitsValue cs)
        then some (digitsValue cs) else none := by
      cases cs with
      | nil => rfl
      | cons c r =>
        have hc : c ≠ '+' := fun hc => hsign ⟨r, by rw [hc]⟩
        simp [unsigned?, hc]
    rw [hdigits]
    refine number_iff.trans ⟨.inl, ?_⟩
    rintro (h | ⟨ds, rfl, -⟩)
    · exact h
    · exact absurd ⟨ds, rfl⟩ hsign

/-- **A value counts as the number that it says**, blanks around it ignored. -/
theorem count?_eq_some {value : String} {n : Nat} :
    count? value = some n ↔ Says (Text.trim value.toList) n := unsigned?_eq_some

theorem readable_iff {key value : String} : Readable key value ↔
    (key = "limit" ∨ key = "offset" → ∃ n, Says (Text.trim value.toList) n) := by
  simp only [Readable, Option.isSome_iff_exists, count?_eq_some]

/-- **A window that tells what the first values of the three keys tell.** -/
structure Tells (first : String → String → Prop) (w : Window) : Prop where
  order : ∀ ts, w.order = some ts ↔ ∃ value, first "order" value ∧ Order.parse value = some ts
  limit : ∀ n, w.limit = some n ↔ ∃ value, first "limit" value ∧ Says (Text.trim value.toList) n
  offset : ∀ n, w.offset = some n ↔ ∃ value, first "offset" value ∧ Says (Text.trim value.toList) n

end Window

/-! ## Places -/

namespace Windows

/-- **The first value of the key that is called so at a place.** -/
def FirstAt (params : QueryParams) (tree : AliasTree) (path : List String) (key value : String) : Prop :=
  ∃ e ∈ params.entries, tree.split e.1 = (path, key) ∧ e.2.head? = some value

/-- **A parameter that says a number if it has to.** -/
def Numbered (tree : AliasTree) (e : String × List String) : Prop :=
  ∀ value, e.2.head? = some value → (tree.split e.1).2 = "limit" ∨ (tree.split e.1).2 = "offset" →
    ∃ n, Window.Says (Text.trim value.toList) n

variable {params : QueryParams} {tree : AliasTree}

theorem head?_of_mem {e : String × List String} (he : e ∈ params.entries) :
    e.2.head? = some (e.2.headD "") := by
  obtain ⟨v, vs, hvs⟩ := List.exists_cons_of_ne_nil (params.values_ne_nil e he)
  rw [hvs]
  rfl

theorem numbered_iff {e : String × List String} (he : e ∈ params.entries) :
    Numbered tree e ↔ Window.Readable (tree.split e.1).2 (e.2.headD "") := by
  rw [Numbered, head?_of_mem he, Window.readable_iff]
  simp

theorem get?_routed {path : List String} {key : String} (hkey : isWindowKey key = true)
    {values : List String} : Entries.get? key (routed tree path params.entries) = some values ↔
      ∃ e ∈ params.entries, tree.split e.1 = (path, key) ∧ e.2 = values := by
  have hmem : (key, values) ∈ routed tree path params.entries ↔
      ∃ e ∈ params.entries, tree.split e.1 = (path, key) ∧ e.2 = values := by
    simp only [routed, List.mem_filterMap, placedAt?_eq_some, hkey, true_and, @eq_comm _ values]
  rw [← hmem]
  exact ⟨Entries.mem_of_get?, Entries.get?_of_mem (nodup_routed tree path params.nodup_keys)⟩

theorem bind_get?_routed {α : Type} {path : List String} {key : String} (hkey : isWindowKey key = true)
    (read : String → Option α) (a : α) :
    ((Entries.get? key (routed tree path params.entries)).bind fun values => read (values.headD "")) =
        some a ↔
      ∃ value, FirstAt params tree path key value ∧ read value = some a := by
  simp only [Option.bind_eq_some_iff, get?_routed hkey]
  constructor
  · rintro ⟨values, ⟨e, he, hsplit, rfl⟩, hread⟩
    exact ⟨e.2.headD "", ⟨e, he, hsplit, head?_of_mem he⟩, hread⟩
  · rintro ⟨value, ⟨e, he, hsplit, hvalue⟩, hread⟩
    obtain rfl : e.2.headD "" = value := Option.some.inj ((head?_of_mem he).symm.trans hvalue)
    exact ⟨e.2, ⟨e, he, hsplit, rfl⟩, hread⟩

theorem routed_ne_nil_iff {path : List String} : routed tree path params.entries ≠ [] ↔
    ∃ key value, isWindowKey key = true ∧ FirstAt params tree path key value := by
  constructor
  · intro hne
    obtain ⟨e', es, hes⟩ := List.exists_cons_of_ne_nil hne
    have hmem : e' ∈ routed tree path params.entries := hes ▸ List.mem_cons_self
    obtain ⟨e, he, hplaced⟩ := List.mem_filterMap.mp hmem
    obtain ⟨hkey, hsplit, -⟩ := placedAt?_eq_some.mp hplaced
    exact ⟨e'.1, e.2.headD "", hkey, e, he, hsplit, head?_of_mem he⟩
  · rintro ⟨key, value, hkey, e, he, hsplit, -⟩
    have hget : Entries.get? key (routed tree path params.entries) = some e.2 :=
      (get?_routed hkey).mpr ⟨e, he, hsplit, rfl⟩
    exact List.ne_nil_of_mem (Entries.mem_of_get? hget)

theorem nil_not_mem_keys {ws : Windows} (h : ofParams params tree = .ok ws) :
    [] ∉ Entries.keys ws.embedded := by
  refine Refusal.foldlM_invariant (P := fun ws : Windows => [] ∉ Entries.keys ws.embedded) ?_
    (by simp) h
  intro ws e ws' hws hstep
  have kept : ∀ path change, modify path change ws = .ok ws' → [] ∉ Entries.keys ws'.embedded := by
    intro path change hmodify
    unfold modify at hmodify
    split at hmodify
    · obtain ⟨w, -, rfl⟩ := Refusal.map_eq_ok.mp hmodify
      exact hws
    · rename_i hne
      obtain ⟨w, -, rfl⟩ := Refusal.map_eq_ok.mp hmodify
      rw [Entries.insert, Entries.mem_keys_update]
      rintro (hnil | hmem)
      · exact hne hnil.symm
      · exact hws hmem
  unfold step at hstep
  split at hstep
  · obtain rfl := Except.ok.inj hstep
    exact hws
  · simp only at hstep
    split at hstep
    · exact kept _ _ hstep
    · obtain rfl := Except.ok.inj hstep
      exact hws

/-- **An embed has a window exactly if a key leads to it.** -/
theorem mem_keys_embedded {ws : Windows} (h : ofParams params tree = .ok ws) (path : List String) :
    path ∈ Entries.keys ws.embedded ↔
      path ≠ [] ∧ ∃ key value, isWindowKey key = true ∧ FirstAt params tree path key value := by
  rw [← routed_ne_nil_iff]
  by_cases hpath : path = []
  · subst hpath
    exact iff_of_false (nil_not_mem_keys h) (by simp)
  · have hat := at?_ofParams h path
    rw [at?, if_neg hpath] at hat
    rw [← not_iff_not, ← Entries.get?_eq_none_iff, hat]
    by_cases hnil : routed tree path params.entries = [] <;> simp [hnil, hpath]

theorem tells_at? {ws : Windows} (h : ofParams params tree = .ok ws) (path : List String) :
    ((at? path ws).getD .all).Tells (FirstAt params tree path) := by
  have hwindow : (at? path ws).getD .all = .ofEntries (routed tree path params.entries) := by
    rw [at?_ofParams h]
    by_cases hnil : routed tree path params.entries = []
    · by_cases hpath : path = []
      · simp [hpath]
      · simp only [hnil, hpath, ne_eq, not_false_eq_true, and_self, if_true]
        rfl
    · simp [hnil]
  rw [hwindow]
  refine ⟨fun ts => ?_, fun n => ?_, fun n => ?_⟩
  · exact bind_get?_routed (by decide) Order.parse ts
  · simp only [← Window.count?_eq_some]
    exact bind_get?_routed (by decide) Window.count? n
  · simp only [← Window.count?_eq_some]
    exact bind_get?_routed (by decide) Window.count? n

/-! ## Errors -/

theorem eq_of_step_eq_error {ws : Windows} {e : String × List String} {error : WindowError}
    (h : step tree ws e = .error error) : error = .invalidInteger e.1 (e.2.headD "") := by
  have hcount : ∀ {key value : String} {put : Nat → Window},
      (Window.count key value).map put = .error error → error = .invalidInteger key value := by
    intro key value put hmap
    rw [Refusal.map_eq_error, Window.count] at hmap
    split at hmap
    · simp at hmap
    · exact (Except.error.inj hmap).symm
  have happly : ∀ {key value : String} {w : Window},
      Window.apply e.1 key value w = .error error → error = .invalidInteger e.1 value := by
    intro key value w hmap
    unfold Window.apply at hmap
    split_ifs at hmap
    · exact hcount hmap
    · exact hcount hmap
  unfold step at h
  split at h
  · simp at h
  · rename_i value values hvalues
    rw [hvalues]
    simp only at h
    split at h
    · unfold modify at h
      split at h
      · exact happly (Refusal.map_eq_error.mp h)
      · exact happly (Refusal.map_eq_error.mp h)
    · simp at h

/-- **Limits and offsets are exact, or an error.** Parameters make windows exactly if the first value of every
limit and offset says a number; the windows then say what the first values say, each at its place. Otherwise
the error names the first key, in their order, whose value says no number, and that value. -/
theorem numbered_ofParams (params : QueryParams) (tree : AliasTree) :
    ((∃ ws, ofParams params tree = .ok ws) ↔ ∀ e ∈ params.entries, Numbered tree e) ∧
    (∀ ws, ofParams params tree = .ok ws →
      (∀ path, path ∈ Entries.keys ws.embedded ↔
        path ≠ [] ∧ ∃ key value, isWindowKey key = true ∧ FirstAt params tree path key value) ∧
      ∀ path, ((at? path ws).getD .all).Tells (FirstAt params tree path)) ∧
    (∀ d ∈ params.entries, ∀ e ∈ params.entries, tree.split d.1 = tree.split e.1 → d = e) ∧
    ∀ error, ofParams params tree = .error error ↔ ∃ before e after value,
      params.entries = before ++ e :: after ∧ (∀ d ∈ before, Numbered tree d) ∧ ¬Numbered tree e ∧
        e.2.head? = some value ∧ error = .invalidInteger e.1 value := by
  have hstep : ∀ ws, ∀ e ∈ params.entries, (∃ ws', step tree ws e = .ok ws') ↔ Numbered tree e :=
    fun ws e he => (exists_step_iff tree ws he).trans (numbered_iff he).symm
  refine ⟨Refusal.exists_foldlM_iff _ hstep,
    fun ws h => ⟨mem_keys_embedded h, tells_at? h⟩, fun d hd e he hsplit => ?_, fun error => ?_⟩
  · exact List.inj_on_of_nodup_map params.nodup_keys hd he (tree.split_inj hsplit)
  · have hreason : ∀ ws, ∀ e ∈ params.entries, ∀ error, step tree ws e = .error error →
        error = .invalidInteger e.1 (e.2.headD "") := fun ws e _ error h => eq_of_step_eq_error h
    refine (Refusal.foldlM_eq_error_iff _ _ hstep hreason error).trans ?_
    constructor
    · rintro ⟨before, e, after, hentries, hbefore, hnot, rfl⟩
      have he : e ∈ params.entries := by simp [hentries]
      exact ⟨before, e, after, _, hentries, hbefore, hnot, head?_of_mem he, rfl⟩
    · rintro ⟨before, e, after, value, hentries, hbefore, hnot, hvalue, rfl⟩
      have he : e ∈ params.entries := by simp [hentries]
      obtain rfl : e.2.headD "" = value := Option.some.inj ((head?_of_mem he).symm.trans hvalue)
      exact ⟨before, e, after, hentries, hbefore, hnot, rfl⟩

/-- A limit given twice, with a sign and blanks around it, and the offset of an embed with leading zeros. -/
theorem numbered_ofParams_first :
    let params := QueryParams.ofPairs
      [("limit", " +10 "), ("a.offset", "007"), ("limit", "ten"), ("order", ",b.desc")]
    let tree : AliasTree := .node [("a", .empty)]
    ∃ ws, ofParams params tree = .ok ws ∧ at? ["a"] ws = some ⟨none, none, some 7⟩ ∧
      (["a"] ∈ Entries.keys ws.embedded ↔ ["a"] ≠ [] ∧
        ∃ key value, isWindowKey key = true ∧ FirstAt params tree ["a"] key value) ∧
      ((at? ["a"] ws).getD .all).Tells (FirstAt params tree ["a"]) := by
  intro params tree
  have h : ofParams params tree = .ok ⟨⟨some [⟨"b", some .desc, none⟩], some 10, none⟩,
      [(["a"], ⟨none, none, some 7⟩)]⟩ := by
    cbv
  obtain ⟨hkeys, htells⟩ := (numbered_ofParams params tree).2.1 _ h
  exact ⟨_, h, rfl, hkeys ["a"], htells ["a"]⟩

end Windows

end ResourceQuery
