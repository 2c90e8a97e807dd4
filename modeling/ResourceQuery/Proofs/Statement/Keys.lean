import ResourceQuery.Proofs.Collected
import ResourceQuery.Proofs.Filter.Meaning
import ResourceQuery.Window

/-! # Every key has one reader

A key is one of three: it names columns of the request as a whole and says nothing about rows; it orders or
cuts the rows of its place; or it is a filter of its place, under the name it has there. The filters and
the windows of a request decide on their own, in a different order, which parameters to read, and the labels
of embeds may be spelled like any key. They agree nevertheless: no key is read by both, and none is left out
(`existsUnique_reads`).

* `Filters.ofParams_eq_foldlM`, `Windows.ofParams_eq_foldlM`: every parameter of one's own is read, at the
  place where its key leads.
* `read_once`: what others read makes no difference, also to which error is reported. -/

namespace ResourceQuery

/-- **Who reads a key.** -/
inductive KeyReader where
  | outside
  | windows
  | filters
deriving DecidableEq, Repr

namespace KeyReader

/-- The keys that say nothing about rows. -/
def outsideKeys : List String := ["select", "on_conflict", "columns"]

/-- **Whether a reader reads a key**, given the labels of the select list. The windows go by the key where
it leads, the keys that are outside are whole keys, and the filters read all others. -/
def Reads (tree : AliasTree) (key : String) : KeyReader → Prop
  | outside => key ∈ outsideKeys
  | windows => isWindowKey (tree.split key).2
  | filters => key ∉ outsideKeys ∧ isWindowKey (tree.split key).2 = false

instance (tree : AliasTree) (key : String) : DecidablePred (Reads tree key)
  | outside => inferInstanceAs (Decidable (key ∈ outsideKeys))
  | windows => inferInstanceAs (Decidable (isWindowKey (tree.split key).2 = true))
  | filters =>
    inferInstanceAs (Decidable (key ∉ outsideKeys ∧ isWindowKey (tree.split key).2 = false))

/-- **The parameters of a reader**: those with its keys, and no others. -/
def params (r : KeyReader) (tree : AliasTree) (p : QueryParams) : QueryParams :=
  p.filter fun key _ => decide (Reads tree key r)

theorem entries_params (r : KeyReader) (tree : AliasTree) (p : QueryParams) :
    (r.params tree p).entries = p.entries.filter fun e => decide (Reads tree e.1 r) :=
  QueryParams.entries_filter _ p

/-! ## One reader -/

theorem mem_reservedKeys_iff {key : String} :
    key ∈ reservedKeys ↔ key ∈ outsideKeys ∨ key ∈ windowKeys := by
  simp only [reservedKeys, outsideKeys, windowKeys, List.mem_cons, List.not_mem_nil, or_false]
  tauto

theorem isWindowKey_eq_false_of_outside (tree : AliasTree) {key : String} (h : key ∈ outsideKeys) :
    isWindowKey (tree.split key).2 = false := by
  have hwindow : ∀ k ∈ outsideKeys, isWindowKey k = false := by decide
  rw [tree.split_of_reserved (mem_reservedKeys_iff.mpr (Or.inl h))]
  exact hwindow key h

/-- **Every key has exactly one reader.** -/
theorem existsUnique_reads (tree : AliasTree) (key : String) : ∃! r, Reads tree key r := by
  by_cases hout : key ∈ outsideKeys
  · have hwindow := isWindowKey_eq_false_of_outside tree hout
    refine ⟨outside, hout, fun r hr => ?_⟩
    cases r with
    | outside => rfl
    | windows => simp [Reads, hwindow] at hr
    | filters => exact absurd hout hr.1
  · cases hwindow : isWindowKey (tree.split key).2 with
    | true =>
      refine ⟨windows, hwindow, fun r hr => ?_⟩
      cases r with
      | outside => exact absurd hr hout
      | windows => rfl
      | filters => simp [Reads, hwindow] at hr
    | false =>
      refine ⟨filters, ⟨hout, hwindow⟩, fun r hr => ?_⟩
      cases r with
      | outside => exact absurd hr hout
      | windows => simp [Reads, hwindow] at hr
      | filters => rfl

/-- Labels that are spelled like keys. -/
example : Reads (.node [("order", .node [("select", .empty)])]) "order.select.limit" .windows ∧
    Reads (.node [("order", .node [("select", .empty)])]) "order.select" .filters := by
  decide +kernel

end KeyReader

/-! ## What is read -/

namespace Filters

open KeyReader

/-- **A filter key goes to the place it leads to**, under the name it has there. -/
def read (tree : AliasTree) (fs : Filters) (e : String × List String) : Except FilterError Filters :=
  modify (tree.split e.1).1 (applyKey (tree.split e.1).2 e.2) fs

theorem place?_eq (tree : AliasTree) (key : String) :
    place? tree key = if Reads tree key .filters then some (tree.split key) else none := by
  have hwhole : (tree.split key).1 = [] → (tree.split key).2 = key := by
    intro hpath
    have hjoin := tree.joinWith_split key
    rw [hpath] at hjoin
    exact String.toList_inj.mp hjoin
  unfold place?
  by_cases hreserved : key ∈ reservedKeys
  · have hreads : ¬ Reads tree key .filters := by
      rintro ⟨hout, hwindow⟩
      rw [tree.split_of_reserved hreserved] at hwindow
      have hin := (mem_reservedKeys_iff.mp hreserved).resolve_left hout
      simp [isWindowKey_iff.mpr hin] at hwindow
    rw [if_pos (isReserved_iff.mpr hreserved), if_neg hreads]
  · have hout : key ∉ outsideKeys := fun h => hreserved (mem_reservedKeys_iff.mpr (Or.inl h))
    -- a window key that is not reserved is behind a label
    have hlabel : isWindowKey (tree.split key).2 = true → (tree.split key).1 ≠ [] := by
      intro hwindow hpath
      rw [hwhole hpath] at hwindow
      exact hreserved (mem_reservedKeys_iff.mpr (Or.inr (isWindowKey_iff.mp hwindow)))
    have hnot : isReserved key ≠ true := fun h => hreserved (isReserved_iff.mp h)
    rw [if_neg hnot]
    cases hwindow : isWindowKey (tree.split key).2 with
    | true => simp [Reads, hwindow, hlabel hwindow]
    | false => simp [Reads, hwindow, hout]

/-- **The filters of a request are what its filter keys say**, each read where it leads. -/
theorem ofParams_eq_foldlM (p : QueryParams) (tree : AliasTree) :
    ofParams p tree = (p.entries.filter fun e => decide (Reads tree e.1 .filters)).foldlM
      (read tree) ⟨[], []⟩ := by
  refine Refusal.foldlM_eq_filter _ _ (fun fs e _ hreads => ?_) fun fs e _ hreads => ?_
  · rw [step_eq, place?_eq, if_pos (of_decide_eq_true hreads)]
    rfl
  · rw [step_eq, place?_eq, if_neg (of_decide_eq_false hreads)]

end Filters

namespace Windows

open KeyReader

/-- **A window key goes to the place it leads to**, with its first value. -/
def read (tree : AliasTree) (ws : Windows) (e : String × List String) : Except WindowError Windows :=
  modify (tree.split e.1).1 (Window.apply e.1 (tree.split e.1).2 (e.2.headD "")) ws

/-- **The windows of a request are what its window keys say**, each read where it leads. -/
theorem ofParams_eq_foldlM (p : QueryParams) (tree : AliasTree) :
    ofParams p tree = (p.entries.filter fun e => decide (Reads tree e.1 .windows)).foldlM
      (read tree) ⟨.all, []⟩ := by
  have hstep : ∀ ws, ∀ e ∈ p.entries,
      step tree ws e = if Reads tree e.1 .windows then read tree ws e else .ok ws := by
    intro ws e he
    have hvalues := p.values_ne_nil e he
    unfold step read
    cases hvs : e.2 with
    | nil => exact absurd hvs hvalues
    | cons value values => rfl
  refine Refusal.foldlM_eq_filter _ _ (fun ws e he hreads => ?_) fun ws e he hreads => ?_
  · rw [hstep ws e he, if_pos (of_decide_eq_true hreads)]
  · rw [hstep ws e he, if_neg (of_decide_eq_false hreads)]

end Windows

/-- **Every parameter has one reader**, and what the others read makes no difference to it. -/
theorem read_once (p : QueryParams) (tree : AliasTree) :
    (∀ key, ∃! r, KeyReader.Reads tree key r) ∧
    (Filters.ofParams p tree = (KeyReader.filters.params tree p).entries.foldlM
        (Filters.read tree) ⟨[], []⟩ ∧
      Filters.ofParams p tree = Filters.ofParams (KeyReader.filters.params tree p) tree) ∧
    Windows.ofParams p tree = (KeyReader.windows.params tree p).entries.foldlM
        (Windows.read tree) ⟨.all, []⟩ ∧
      Windows.ofParams p tree = Windows.ofParams (KeyReader.windows.params tree p) tree := by
  refine ⟨KeyReader.existsUnique_reads tree, ⟨?_, ?_⟩, ?_, ?_⟩
  · rw [Filters.ofParams_eq_foldlM, KeyReader.entries_params]
  · rw [Filters.ofParams_eq_foldlM, Filters.ofParams_eq_foldlM (KeyReader.filters.params tree p),
      KeyReader.entries_params, List.filter_filter]
    simp only [Bool.and_self]
  · rw [Windows.ofParams_eq_foldlM, KeyReader.entries_params]
  · rw [Windows.ofParams_eq_foldlM, Windows.ofParams_eq_foldlM (KeyReader.windows.params tree p),
      KeyReader.entries_params, List.filter_filter]
    simp only [Bool.and_self]

end ResourceQuery
