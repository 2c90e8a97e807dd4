import ResourceQuery.Proofs.Filter.Meaning
import ResourceQuery.Proofs.Statement.Attached
import ResourceQuery.Proofs.Windows

/-! # The places of a statement

A statement has conditions at several places: its own at the empty path, and those of each embed at the
path of its labels. They are the conditions collected for that path (`filter_of_conditionsAt`, `window_eq`),
and wherever the tree of labels leads a key there is such a place (`exists_conditionsAt`). -/

namespace ResourceQuery

/-- **The conditions at a place** of a statement: its own ones, or those of an embed. -/
inductive Statement.ConditionsAt (s : Statement) : List String → EmbedConditions → Prop where
  | top : ConditionsAt s [] ⟨s.filter, s.window⟩
  | embed {path : List String} {label : String} {inner : List (Select.Item EmbedConditions)}
      {note : EmbedConditions} {spread : Bool} {join : Option Select.JoinMap}
      (h : Select.EmbedAt (s.select.getD []) path (.embed label inner note spread join)) :
      ConditionsAt s path note

namespace Parts

variable {basePath : String} {r : Request} {p : Parts} {path : List String} {note : EmbedConditions}

/-- **The filter at a place** is the one collected for its path; that of the request itself is left out if it
has no conditions. -/
theorem filter_of_conditionsAt (h : (p.statement { basePath } r).ConditionsAt path note) :
    note.filter = if path = [] then Statement.filter? p.filters.top else Filters.at? path p.filters := by
  cases h with
  | top => rfl
  | embed hat =>
    have hnote := Statement.note_of_embedAt hat (Statement.getD_select? _ _ _) rfl
    rw [Filters.at?, if_neg hat.path_ne_nil, if_neg hat.path_ne_nil, hnote]
    rfl

theorem filter_eq (h : (p.statement { basePath } r).ConditionsAt path note) :
    note.filter.getD [] = (Filters.at? path p.filters).getD [] := by
  rw [filter_of_conditionsAt h]
  split_ifs with hpath
  · rw [hpath]
    exact Statement.getD_filter? p.filters.top
  · rfl

theorem window_eq (h : (p.statement { basePath } r).ConditionsAt path note) :
    note.window = (Windows.at? path p.windows).getD .all := by
  cases h with
  | top => rfl
  | embed hat =>
    have hnote := Statement.note_of_embedAt hat (Statement.getD_select? _ _ _) rfl
    rw [Windows.at?, if_neg hat.path_ne_nil, hnote]
    rfl

theorem target_statement {t : Target} (r : Request) (p : Parts)
    (h : Target.parse p.url.path basePath = t) :
    p.target { basePath } = t ∧ (p.statement { basePath } r).target = t := ⟨h, h⟩

theorem getD_select (r : Request) (p : Parts) : (p.statement { basePath } r).select.getD [] =
    Statement.attach (Statement.conditionsAt p.filters p.windows) [] p.selection.items :=
  Statement.getD_select? p.filters p.windows p.selection.items

theorem strip_select (r : Request) (p : Parts) :
    Statement.strip ((p.statement { basePath } r).select.getD []) = p.selection.items := by
  rw [getD_select, Statement.strip_attach]

theorem embedAt_statement {i : Select.Item Unit} (basePath : String) (r : Request)
    (h : Select.EmbedAt p.selection.items path i) :
    ∃ label inner note spread join, Select.EmbedAt ((p.statement { basePath } r).select.getD []) path
      (.embed label inner note spread join) := by
  rw [getD_select]
  obtain ⟨j, hj⟩ := Statement.embedAt_attach h []
  obtain ⟨label, inner, note, spread, join, rfl⟩ := hj.exists_eq
  exact ⟨label, inner, note, spread, join, hj⟩

/-- **Wherever a key leads, there is a place** with conditions. -/
theorem ReadFrom.exists_conditionsAt (hread : p.ReadFrom { basePath } r) (key : String) :
    ∃ note, (p.statement { basePath } r).ConditionsAt (p.selection.aliases.split key).1 note := by
  obtain ⟨nodes, -, hnodes⟩ := Refusal.map_eq_ok.mp hread.selection
  have hitems : Select.itemsOf nodes = p.selection.items := by rw [← hnodes]; rfl
  have haliases : p.selection.aliases = Select.aliasTree nodes := by rw [← hnodes]; rfl
  by_cases hnil : (p.selection.aliases.split key).1 = []
  · rw [hnil]
    exact ⟨_, .top⟩
  · have hled : (Select.aliasTree nodes).LedTo [(p.selection.aliases.split key).1] := by
      intro path hpath
      obtain rfl := List.mem_singleton.mp hpath
      exact ⟨hnil, key, by rw [haliases]⟩
    obtain ⟨i, hi⟩ := exists_embedAt_of_ledTo hled (List.mem_singleton_self _)
    rw [hitems] at hi
    obtain ⟨label, inner, note, spread, join, hat⟩ := embedAt_statement basePath r hi
    exact ⟨note, .embed hat⟩

end Parts

end ResourceQuery
