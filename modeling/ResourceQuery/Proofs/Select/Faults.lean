import Mathlib
import ResourceQuery.Proofs.Select.Sound

/-! # Where a select list is refused

A reader that refuses a text keeps an end of it, which is where the fault is. What the fault says is true of
that end: a quote that is not closed is its first character, and what is missing does not stand there
(`Cause.TrueAt`). Layout before the fault has been skipped.

No reader moves the fault of another one: it lies in what the reader was given, so it lies in the whole text
(`PointsInto.mono`), and the number of octets before it is its position (`located_of_parse`). -/

namespace ResourceQuery.Select

open Text (Reader skipLayout spanWord Yields Takes Blames)

/-! ## What a fault says -/

/-- What is missing does not stand here. -/
def Expected.MissingAt : Expected → List Char → Prop
  | identifier, rest => ∀ c ∈ rest.head?, Text.isWordChar c = false ∧ c ≠ '"'
  | openParen, rest => rest.head? ≠ some '('
  | closeParen, rest => rest.head? ≠ some ')'

/-- A quote is opened here, and no other quote follows. -/
def OpensQuote (rest : List Char) : Prop := ∃ inside, rest = '"' :: inside ∧ '"' ∉ inside

/-- **What is wrong, is wrong here.** -/
def Cause.TrueAt : Cause → List Char → Prop
  | unexpected, _ => True
  | unterminatedQuote, rest => OpensQuote rest
  | expected what, rest => what.MissingAt rest
  | tooDeep, _ => True

/-- No layout stands here. -/
def AfterLayout (rest : List Char) : Prop := ∀ c ∈ rest.head?, Text.isLayout c = false

theorem afterLayout_skipLayout (cs : List Char) : AfterLayout (skipLayout cs) :=
  fun _ hc => Text.head?_skipLayout hc

/-- **A fault in a text** keeps an end of it, and says what is true there. -/
structure Fault.PointsInto (cs : List Char) (f : Fault) : Prop where
  suffix : f.rest <:+ cs
  afterLayout : AfterLayout f.rest
  trueAt : f.cause.TrueAt f.rest

theorem Fault.PointsInto.mono {cs r : List Char} {f : Fault} (hr : r <:+ cs) (h : f.PointsInto r) :
    f.PointsInto cs :=
  ⟨h.suffix.trans hr, h.afterLayout, h.trueAt⟩

theorem Fault.pointsInto_skipLayout {cs : List Char} {cause : Cause}
    (h : cause.TrueAt (skipLayout cs)) : Fault.PointsInto cs ⟨cause, skipLayout cs⟩ :=
  ⟨Text.skipLayout_suffix cs, afterLayout_skipLayout cs, h⟩

/-- A reader whose faults are in the text it was given. -/
abbrev Points {α : Type} (reader : Reader Fault α) : Prop := Blames reader Fault.PointsInto

theorem Points.ok {α : Type} (a : α) : Points fun cs => .ok (a, cs) := by
  intro cs f h
  simp at h

variable {α β : Type} {P : α → Prop} {item : Reader Fault α}

theorem Points.map (hitem : Points item) (f : α → β) :
    Points fun cs => (item cs).map fun p => (f p.1, p.2) :=
  fun _ _ h => hitem (Refusal.map_eq_error.mp h)

/-- **The fault of what is read next** lies in what was left to it. -/
theorem Points.bind {next : α × List Char → Except Fault (β × List Char)} (hyields : Yields item P)
    (hitem : Points item) (hnext : ∀ a, Points fun cs => next (a, cs)) :
    Points fun cs => item cs >>= next := by
  intro cs f h
  rcases Refusal.bind_eq_error.mp h with h | ⟨⟨a, r⟩, hread, h⟩
  · exact hitem h
  · exact (hnext a h).mono (hyields hread).2

theorem Points.option {sep? : List Char → Option (List Char)} {without withMark : Reader Fault α}
    (hs : Takes sep?) (hwithout : Points without) (hwith : Points withMark) : Points fun cs =>
      match sep? cs with
      | none => without cs
      | some r => withMark r := by
  intro cs f h
  cases hsep : sep? cs with
  | none =>
    simp only [hsep] at h
    exact hwithout h
  | some r =>
    simp only [hsep] at h
    exact (hwith h).mono (hs.suffix hsep)

/-! ## Tokens -/

theorem not_mem_of_quotedText? {cs : List Char} (h : quotedText? cs = none) : '"' ∉ cs := by
  induction cs with
  | nil => simp
  | cons c cs ih =>
    unfold quotedText? at h
    split at h
    · simp at h
    · rename_i hc
      simp [Ne.symm hc, ih (Option.map_eq_none_iff.mp h)]

theorem points_identifier : Points identifier := by
  intro cs f h
  unfold identifier at h
  split at h
  · rename_i r hskip
    split at h
    · simp at h
    · rename_i hopen
      obtain rfl := Except.error.inj h
      rw [← hskip]
      exact Fault.pointsInto_skipLayout ⟨r, hskip, not_mem_of_quotedText? hopen⟩
  · rename_i hquote
    split at h
    · rename_i rest hword
      obtain rfl := Except.error.inj h
      refine Fault.pointsInto_skipLayout fun c hc => ⟨?_, ?_⟩
      · obtain ⟨r, hr⟩ := List.head?_eq_some_iff.mp hc
        have htake : (skipLayout cs).takeWhile Text.isWordChar = [] := congrArg Prod.fst hword
        rw [hr, List.takeWhile_cons] at htake
        cases hc : Text.isWordChar c with
        | false => rfl
        | true => simp [hc] at htake
      · rintro rfl
        obtain ⟨r, hr⟩ := List.head?_eq_some_iff.mp hc
        exact hquote r hr
    · simp at h

theorem points_openParen {cs : List Char} {f : Fault} (h : openParen cs = .error f) :
    f.PointsInto cs := by
  unfold openParen at h
  split at h
  · simp at h
  · rename_i hparen
    obtain rfl := Except.error.inj h
    refine Fault.pointsInto_skipLayout fun hc => ?_
    obtain ⟨r, hr⟩ := List.head?_eq_some_iff.mp hc
    exact hparen r hr

theorem points_closeParen {cs : List Char} {f : Fault} (h : closeParen cs = .error f) :
    f.PointsInto cs := by
  unfold closeParen at h
  split at h
  · simp at h
  · rename_i hparen
    obtain rfl := Except.error.inj h
    refine Fault.pointsInto_skipLayout fun hc => ?_
    obtain ⟨r, hr⟩ := List.head?_eq_some_iff.mp hc
    exact hparen r hr

/-! ## Columns -/

theorem points_cast? : Points cast? :=
  .option takes_doubleColon? (.ok none) (points_identifier.map some)

theorem points_path? : Points path? :=
  .option takes_arrow? (.ok none) (Points.map (Text.blames_separated yields_identifier takes_arrow?
    (fun _ _ _ => .mono) points_identifier) some)

theorem points_tail : Points tail := by
  refine .bind yields_cast? points_cast? fun first => ?_
  intro cs f h
  simp only at h
  split at h
  · rename_i a r hagg
    rcases Refusal.bind_eq_error.mp h with h | ⟨_, -, h⟩
    · exact (points_cast? h).mono (suffix_of_aggregate? hagg)
    · simp [pure, Except.pure] at h
  · simp [pure, Except.pure] at h

theorem points_columnField (ident : String) (label : Option String) :
    Points (columnField ident label) :=
  .bind yields_path? points_path? fun _ => .bind yields_tail points_tail fun _ => .ok _

theorem points_countNode (label : Option String) : Points (countNode label) := by
  intro cs f h
  unfold countNode at h
  rcases Refusal.bind_eq_error.mp h with h | ⟨_, -, h⟩
  · refine (points_cast? h).mono ?_
    split
    · exact (List.suffix_cons _ _).trans (List.suffix_cons _ _)
    · exact List.suffix_refl _
  · simp [pure, Except.pure] at h

/-! ## Entries -/

theorem points_modifiers : Points modifiers := by
  refine .option takes_bang? (.ok Join.plain) (.bind yields_identifier points_identifier fun word => ?_)
  cases hkind : JoinKind.ofWord? word with
  | some kind =>
    simp only [hkind]
    exact .ok _
  | none =>
    simp only [hkind]
    refine .option takes_bang? (.ok _) fun cs f h => ?_
    split at h
    · simp [pure, Except.pure] at h
    · obtain rfl := Except.error.inj h
      exact Fault.pointsInto_skipLayout trivial

section Body

variable {body : Reader Fault (List Node)} {n : Nat} (hyields : Yields body (Body n)) (hbody : Points body)
include hyields hbody

theorem points_embedField (ident : String) (label : Option String) :
    Points (embedField body ident label) := by
  refine .bind yields_modifiers points_modifiers fun join => .bind hyields hbody fun nodes => ?_
  cases label with
  | none => exact .ok _
  | some label => exact .ok _

theorem points_field (ident : String) (label : Option String) : Points (field body ident label) := by
  intro cs f h
  refine Fault.PointsInto.mono (Text.skipLayout_suffix cs) ?_
  unfold field at h
  simp only at h
  split at h
  · exact points_countNode label h
  · split at h
    · exact points_embedField hyields hbody ident label h
    · exact points_embedField hyields hbody ident label h
    · exact points_columnField ident label h

theorem points_spreadNode : Points (spreadNode body) :=
  .bind yields_identifier points_identifier fun _ =>
    .bind yields_modifiers points_modifiers fun _ => .bind hyields hbody fun _ => .ok _

theorem points_namedNode : Points (namedNode body) := by
  refine .bind yields_identifier points_identifier fun ident => ?_
  have hlabelled : Points fun cs => identifier cs >>= fun p => field body p.1 (some ident) p.2 :=
    .bind yields_identifier points_identifier fun target => points_field hyields hbody target (some ident)
  intro cs f h
  simp only at h
  split at h
  · rename_i r hcolon
    exact (hlabelled h).mono (takes_colon?.suffix hcolon)
  · exact points_field hyields hbody ident none h

/-- **An entry is refused** where something is wrong in it. -/
theorem points_node : Points (node body) := by
  intro cs f h
  unfold node at h
  split at h
  · simp at h
  · rename_i r hskip
    refine (points_spreadNode hyields hbody h).mono
      (List.IsSuffix.trans ?_ (suffix_of_skipLayout hskip))
    exact ((List.suffix_cons _ _).trans (List.suffix_cons _ _)).trans (List.suffix_cons _ _)
  · exact (points_namedNode hyields hbody h).mono (Text.skipLayout_suffix cs)

/-! ## Lists -/

theorem points_query : Points (query body) := by
  intro cs f h
  cases hskip : skipLayout cs with
  | nil =>
    unfold query at h
    simp [hskip] at h
  | cons c r =>
    by_cases hc : c = ')'
    · unfold query at h
      simp [hskip, hc] at h
    · rw [query_eq_separated hskip hc] at h
      have hentries := Text.blames_separated (yields_node hyields) takes_comma? (fun _ _ _ => .mono)
        (points_node hyields hbody)
      exact (hentries h).mono (suffix_of_skipLayout hskip)

end Body

theorem points_bodyAt (n : Nat) : Points (bodyAt n) := by
  induction n with
  | zero =>
    intro cs f h
    obtain rfl := Except.error.inj h
    exact Fault.pointsInto_skipLayout trivial
  | succ n ih =>
    intro cs f h
    rw [bodyAt] at h
    rcases Refusal.bind_eq_error.mp h with h | ⟨r₁, hopen, h⟩
    · exact points_openParen h
    · have hsuffix := suffix_of_openParen hopen
      split at h
      · simp [pure, Except.pure] at h
      · rcases Refusal.bind_eq_error.mp h with h | ⟨⟨nodes, r₂⟩, hquery, h⟩
        · exact (points_query (yields_bodyAt n) ih h).mono hsuffix
        · rcases Refusal.bind_eq_error.mp h with h | ⟨r₃, -, h⟩
          · exact (points_closeParen h).mono ((yields_query (yields_bodyAt n) hquery).2.trans hsuffix)
          · simp [pure, Except.pure] at h

/-! ## Whole texts -/

theorem afterLayout_trimStart (cs : List Char) : AfterLayout (Text.trimStart cs) := by
  intro c hc
  have hblank := List.head?_dropWhile_not Text.isBlank cs
  rw [show cs.dropWhile Text.isBlank = Text.trimStart cs from rfl, hc] at hblank
  cases hlayout : Text.isLayout c with
  | false => rfl
  | true => simp [Text.isBlank_of_isLayout hlayout] at hblank

/-- **A text is refused** where something is wrong in it. -/
theorem pointsInto_of_readAll {cs : List Char} {f : Fault} (h : readAll cs = .error f) :
    f.PointsInto cs := by
  have hyields := yields_bodyAt maxNesting
  unfold readAll at h
  rcases Refusal.bind_eq_error.mp h with h | ⟨⟨nodes, r⟩, hquery, h⟩
  · exact points_query hyields (points_bodyAt maxNesting) h
  · simp only at h
    split at h
    · simp [pure, Except.pure] at h
    · obtain rfl := Except.error.inj h
      exact ⟨(List.dropWhile_suffix _).trans (yields_query hyields hquery).2, afterLayout_trimStart r,
        trivial⟩

/-- **What an error says of the text from its position on.** -/
def SelectError.TrueAt : SelectError → String → Prop
  | unexpectedToken _ remaining, after => remaining = after
  | unterminatedQuote _, after => OpensQuote after.toList
  | expectedToken what _, after => what.MissingAt after.toList
  | tooDeep _, _ => True

theorem SelectError.ofFault_append (before : List Char) {f : Fault} (h : f.cause.TrueAt f.rest) :
    (ofFault (before ++ f.rest) f).position = (String.ofList before).utf8ByteSize ∧
      (ofFault (before ++ f.rest) f).TrueAt (String.ofList f.rest) := by
  have hposition : Text.byteLength (before ++ f.rest) - Text.byteLength f.rest =
      (String.ofList before).utf8ByteSize := by
    rw [Text.byteLength_append, Nat.add_sub_cancel, Text.byteLength_eq_utf8ByteSize]
  unfold ofFault
  simp only [hposition]
  cases hcause : f.cause with
  | unexpected => exact ⟨rfl, rfl⟩
  | unterminatedQuote =>
    rw [hcause] at h
    exact ⟨rfl, by rwa [TrueAt, String.toList_ofList]⟩
  | expected what =>
    rw [hcause] at h
    exact ⟨rfl, by rwa [TrueAt, String.toList_ofList]⟩
  | tooDeep => exact ⟨rfl, trivial⟩

/-- **An error points at what is wrong**: its position lies between two characters of the text, or at an end
of it, layout is skipped, and what it says is true of the text from there on. -/
theorem located_of_parse {text : String} {e : SelectError} (h : parse (some text) = .error e) :
    ∃ before after : String, text = before ++ after ∧ e.position = before.utf8ByteSize ∧
      e.position ≤ text.utf8ByteSize ∧ AfterLayout after.toList ∧ e.TrueAt after := by
  have hnodes : nodesOf text = .error e := Refusal.map_eq_error.mp h
  unfold nodesOf at hnodes
  split at hnodes
  · simp at hnodes
  · rename_i f hread
    obtain rfl := Except.error.inj hnodes
    have hpoints := pointsInto_of_readAll hread
    obtain ⟨before, hbefore⟩ := hpoints.suffix
    obtain ⟨hposition, htrue⟩ := SelectError.ofFault_append before hpoints.trueAt
    have htext : text = String.ofList before ++ String.ofList f.rest := by
      rw [← String.ofList_append, hbefore, String.ofList_toList]
    rw [hbefore] at hposition htrue
    refine ⟨String.ofList before, String.ofList f.rest, htext, hposition, ?_, ?_, htrue⟩
    · rw [hposition, htext, String.utf8ByteSize_append]
      exact Nat.le_add_right _ _
    · rw [String.toList_ofList]
      exact hpoints.afterLayout

/-- A quote that is not closed, in the list of an embed whose name has a character of two octets. -/
theorem located_of_parse_openQuote :
    parse (some "\"é\"( \"b") = .error (.unterminatedQuote 6) ∧
      ∃ before after : String, "\"é\"( \"b" = before ++ after ∧ 6 = before.utf8ByteSize ∧
        6 ≤ "\"é\"( \"b".utf8ByteSize ∧ AfterLayout after.toList ∧ OpensQuote after.toList := by
  have h : parse (some "\"é\"( \"b") = .error (.unterminatedQuote 6) := by cbv
  exact ⟨h, located_of_parse h⟩

end ResourceQuery.Select
