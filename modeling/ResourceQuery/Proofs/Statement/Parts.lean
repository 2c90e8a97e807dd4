import ResourceQuery.Proofs.Refusal
import ResourceQuery.Translator

/-! # What a statement is made of

A request is accepted if and only if every step that can refuse it reads its part; the statement is then
put together from these parts (`translate_eq_ok`). If it is refused for its filters, the parts before them
are read (`filters_of_translate_eq_error`). -/

namespace ResourceQuery

/-- **What is read from a request**, by the steps that may refuse it. -/
structure Parts where
  url : Url
  selection : Select.Selection
  payload : Payload
  filters : Filters
  windows : Windows

namespace Parts

variable (t : Translator) (r : Request)

/-- The target of the request. -/
def target (p : Parts) : Target := t.steps.target p.url.path t.basePath

/-- The parameters of the request. -/
def params (p : Parts) : QueryParams := t.steps.params p.url

/-- The kind of its statement. -/
def kind (p : Parts) : StatementKind :=
  t.steps.kind (p.target t) r.method (t.steps.headers r r.method)

/-- **The parts are those of the request.** -/
structure ReadFrom (p : Parts) : Prop where
  url : Url.parse r.target = .ok p.url
  selection : t.steps.select ((p.params t).first? "select") = .ok p.selection
  payload : r.payload t.steps.payload = .ok p.payload
  filters : t.steps.filters (Translator.filterParams (p.target t) r.method (p.params t))
    p.selection.aliases = .ok p.filters
  windows : t.steps.windows (p.params t) p.selection.aliases = .ok p.windows

/-- **The statement that the parts make.** -/
def statement (p : Parts) : Statement where
  kind := p.kind t r
  target := p.target t
  schema := (t.steps.headers r r.method).schema
  join := Statement.join? p.selection.join
  select := Statement.select? p.filters p.windows p.selection.items
  filter := Statement.filter? p.filters.top
  values := Statement.values? (p.kind t r) p.payload
  window := p.windows.top
  upsert := t.upsert? (p.kind t r) (p.params t) (t.steps.headers r r.method)
  call := t.call (p.kind t r) (p.target t) r.method (p.params t) p.payload
  info := Statement.info? (t.steps.info (t.steps.headers r r.method) (p.params t) r.method)

end Parts

theorem Statement.getD_filter? (f : Filter) : (filter? f).getD [] = f := by cases f <;> rfl

/-- **A request is accepted if and only if all its parts are read.** -/
theorem Translator.translate_eq_ok {t : Translator} {r : Request} {s : Statement} :
    t.translate r = .ok s ↔ ∃ p : Parts, p.ReadFrom t r ∧ s = p.statement t r := by
  unfold Translator.translate
  constructor
  · intro h
    obtain ⟨url, hurl, h⟩ := Refusal.bind_eq_ok.mp h
    obtain ⟨selection, hselection, h⟩ := Refusal.bind_eq_ok.mp h
    obtain ⟨payload, hpayload, h⟩ := Refusal.bind_eq_ok.mp h
    obtain ⟨filters, hfilters, h⟩ := Refusal.bind_eq_ok.mp h
    obtain ⟨windows, hwindows, h⟩ := Refusal.bind_eq_ok.mp h
    refine ⟨⟨url, selection, payload, filters, windows⟩, ⟨?_, ?_, ?_, ?_, ?_⟩, ?_⟩
    · exact Refusal.mapError_eq_ok.mp hurl
    · exact Refusal.mapError_eq_ok.mp hselection
    · exact Refusal.mapError_eq_ok.mp hpayload
    · exact Refusal.mapError_eq_ok.mp hfilters
    · exact Refusal.mapError_eq_ok.mp hwindows
    · exact (Except.ok.inj h).symm
  · rintro ⟨p, ⟨hurl, hselection, hpayload, hfilters, hwindows⟩, rfl⟩
    refine Refusal.bind_eq_ok.mpr ⟨p.url, Refusal.mapError_eq_ok.mpr hurl, ?_⟩
    refine Refusal.bind_eq_ok.mpr ⟨p.selection, Refusal.mapError_eq_ok.mpr hselection, ?_⟩
    refine Refusal.bind_eq_ok.mpr ⟨p.payload, Refusal.mapError_eq_ok.mpr hpayload, ?_⟩
    refine Refusal.bind_eq_ok.mpr ⟨p.filters, Refusal.mapError_eq_ok.mpr hfilters, ?_⟩
    exact Refusal.bind_eq_ok.mpr ⟨p.windows, Refusal.mapError_eq_ok.mpr hwindows, rfl⟩

theorem Parts.ReadFrom.translate_eq {t : Translator} {r : Request} {p : Parts} (h : p.ReadFrom t r) :
    t.translate r = .ok (p.statement t r) := Translator.translate_eq_ok.mpr ⟨p, h, rfl⟩

/-- **A request is refused for its filters** if its parts are read up to them, and they are not. -/
theorem Translator.filters_of_translate_eq_error {t : Translator} {r : Request} {e : FilterError}
    (h : t.translate r = .error (.filter e)) :
    ∃ url selection, Url.parse r.target = .ok url ∧
      t.steps.select ((t.steps.params url).first? "select") = .ok selection ∧
      t.steps.filters (Translator.filterParams (t.steps.target url.path t.basePath) r.method
        (t.steps.params url)) selection.aliases = .error e := by
  -- every other part is refused with an error of its own
  have other : ∀ {ε α : Type} {x : Except ε α} {f : ε → TranslateError} {c : TranslateError},
      (∀ e', f e' ≠ c) → x.mapError f ≠ .error c := by
    intro ε α x f c hf hx
    obtain ⟨e', -, he'⟩ := Refusal.mapError_eq_error.mp hx
    exact hf e' he'
  unfold Translator.translate at h
  rcases Refusal.bind_eq_error.mp h with h | ⟨url, hurl, h⟩
  · exact absurd h (other (by simp))
  rcases Refusal.bind_eq_error.mp h with h | ⟨selection, hselection, h⟩
  · exact absurd h (other (by simp))
  rcases Refusal.bind_eq_error.mp h with h | ⟨payload, -, h⟩
  · exact absurd h (other (by simp))
  refine ⟨url, selection, Refusal.mapError_eq_ok.mp hurl, Refusal.mapError_eq_ok.mp hselection, ?_⟩
  rcases Refusal.bind_eq_error.mp h with h | ⟨filters, -, h⟩
  · obtain ⟨e', he', heq⟩ := Refusal.mapError_eq_error.mp h
    rw [he', TranslateError.filter.inj heq]
  rcases Refusal.bind_eq_error.mp h with h | ⟨windows, -, h⟩
  · exact absurd h (other (by simp))
  · exact absurd h (by simp [pure, Except.pure])

end ResourceQuery
