import Mathlib
import ResourceQuery.Proofs.Entries
import ResourceQuery.Proofs.Select.Written

/-! # Select lists, one after the other

Two texts with a comma between them say what the two say, one after the other (`parse_append_comma`).

No reader looks past a comma that stands after the text it was given (`StopsBefore`). No mark has a comma in
it, so a mark is found before the comma just if it was found before the end; a word and a name end there, and
the word `count` is followed by what it was followed by. The list of an embed ends at its parenthesis. Only
the list of the whole text, which ended with the text, goes on after the comma
(`query_append_comma`). -/

namespace ResourceQuery.Select

open Text (Reader skipLayout spanWord Yields StopsBefore)

variable {t : List Char}

/-! ## Marks -/

theorem exists_of_append_comma (mark : List Char) {cs r : List Char} (hmark : ',' ∉ mark)
    (h : cs ++ ',' :: t = mark ++ r) : ∃ r', cs = mark ++ r' := by
  rcases List.append_eq_append_iff.mp h with ⟨a, rfl, ha⟩ | ⟨a, rfl, -⟩
  · cases a with
    | nil => exact ⟨[], by simp⟩
    | cons c a =>
      obtain ⟨rfl, -⟩ := List.cons.inj ha
      exact absurd (by simp) hmark
  · exact ⟨a, rfl⟩

theorem skipLayout_append_comma (cs : List Char) :
    skipLayout (cs ++ ',' :: t) = skipLayout cs ++ ',' :: t :=
  Text.skipLayout_append_cons (by decide) cs t

theorem spanWord_append_comma (cs : List Char) :
    spanWord (cs ++ ',' :: t) = ((spanWord cs).1, (spanWord cs).2 ++ ',' :: t) :=
  Text.spanWord_append_cons (by decide) cs t

theorem colon?_append_comma (cs : List Char) :
    colon? (cs ++ ',' :: t) = (colon? cs).map (· ++ ',' :: t) := by
  unfold colon?
  rw [skipLayout_append_comma]
  rcases skipLayout cs with _ | ⟨c, _ | ⟨d, r⟩⟩
  · rfl
  · by_cases hc : c = ':' <;> simp [hc]
  · by_cases hc : c = ':' <;> by_cases hd : d = ':' <;> simp [hc, hd]

theorem doubleColon?_append_comma (cs : List Char) :
    doubleColon? (cs ++ ',' :: t) = (doubleColon? cs).map (· ++ ',' :: t) := by
  unfold doubleColon?
  rw [skipLayout_append_comma]
  rcases skipLayout cs with _ | ⟨c, _ | ⟨d, r⟩⟩
  · rfl
  · by_cases hc : c = ':' <;> simp [hc]
  · by_cases hc : c = ':' <;> by_cases hd : d = ':' <;> simp [hc, hd]

theorem bang?_append_comma (cs : List Char) :
    bang? (cs ++ ',' :: t) = (bang? cs).map (· ++ ',' :: t) := by
  unfold bang?
  rw [skipLayout_append_comma]
  rcases skipLayout cs with _ | ⟨c, r⟩
  · rfl
  · by_cases hc : c = '!' <;> simp [hc]

theorem arrow?_append_comma (cs : List Char) :
    arrow? (cs ++ ',' :: t) = (arrow? cs).map (· ++ ',' :: t) := by
  unfold arrow?
  rw [skipLayout_append_comma]
  rcases skipLayout cs with _ | ⟨c, _ | ⟨d, _ | ⟨e, r⟩⟩⟩
  · rfl
  · by_cases hc : c = '-' <;> simp [hc]
  · by_cases hc : c = '-' <;> by_cases hd : d = '>' <;> simp [hc, hd]
  · by_cases hc : c = '-' <;> by_cases hd : d = '>' <;> by_cases he : e = '>' <;> simp [hc, hd, he]

theorem aggregate?_append_comma (cs : List Char) :
    aggregate? (cs ++ ',' :: t) = (aggregate? cs).map (Prod.map id (· ++ ',' :: t)) := by
  unfold aggregate?
  rw [skipLayout_append_comma]
  rcases skipLayout cs with _ | ⟨c, r⟩
  · rfl
  · by_cases hc : c = '.'
    · subst hc
      simp only [List.cons_append, spanWord_append_comma]
      cases Aggregate.ofWord? (String.ofList (spanWord r).1) with
      | none => rfl
      | some a =>
        rcases (spanWord r).2 with _ | ⟨c, _ | ⟨d, rest⟩⟩
        · rfl
        · by_cases hc : c = '(' <;> simp [hc]
        · by_cases hc : c = '(' <;> by_cases hd : d = ')' <;> simp [hc, hd]
    · simp [hc]

theorem countFollows_append_comma (cs : List Char) :
    countFollows (cs ++ ',' :: t) = countFollows cs := by
  rcases cs with _ | ⟨c, _ | ⟨d, r⟩⟩
  · rfl
  · by_cases hcomma : c = ',' <;> by_cases hparen : c = ')' <;> simp [countFollows, hcomma, hparen]
  · by_cases hopen : c = '('
    · by_cases hclose : d = ')' <;> simp [countFollows, hopen, hclose]
    · by_cases hcolon : c = ':'
      · by_cases hcolon' : d = ':' <;> simp [countFollows, hcolon, hcolon']
      · by_cases hcomma : c = ',' <;> by_cases hparen : c = ')' <;>
          simp [countFollows, hopen, hcolon, hcomma, hparen]

theorem openParen_append_comma {cs r : List Char} (h : openParen cs = .ok r) :
    openParen (cs ++ ',' :: t) = .ok (r ++ ',' :: t) := by
  unfold openParen at h ⊢
  rw [skipLayout_append_comma]
  split at h
  · rename_i hskip
    obtain rfl := Except.ok.inj h
    rw [hskip]
    rfl
  · simp at h

theorem skipLayout_of_closeParen {cs r : List Char} (h : closeParen cs = .ok r) :
    skipLayout cs = ')' :: r := by
  unfold closeParen at h
  split at h
  · rename_i hskip
    obtain rfl := Except.ok.inj h
    exact hskip
  · simp at h

theorem closeParen_append_comma {cs r : List Char} (h : closeParen cs = .ok r) :
    closeParen (cs ++ ',' :: t) = .ok (r ++ ',' :: t) := by
  unfold closeParen
  rw [skipLayout_append_comma, skipLayout_of_closeParen h]
  rfl

theorem comma?_append_comma {cs r : List Char} (h : comma? cs = some r) :
    comma? (cs ++ ',' :: t) = some (r ++ ',' :: t) := by
  unfold comma? at h ⊢
  rw [skipLayout_append_comma]
  split at h
  · rename_i hskip
    obtain rfl := Option.some.inj h
    rw [hskip]
    rfl
  · simp at h

/-! ## Pieces -/

theorem stopsBefore_identifier : StopsBefore (',' :: t) identifier := by
  intro cs name r h
  unfold identifier at h ⊢
  rw [skipLayout_append_comma]
  split at h
  · rename_i r₀ hskip
    split at h
    · rename_i name' rest hquoted
      obtain ⟨rfl, rfl⟩ := Refusal.ok_pair_inj h
      obtain ⟨rfl, hname⟩ := quotedText?_eq_some hquoted
      have hquoted' : quotedText? (name' ++ '"' :: (rest ++ ',' :: t)) = some (name', rest ++ ',' :: t) :=
        quotedText?_append hname
      simp only [hskip, List.cons_append, List.append_assoc, hquoted']
    · simp at h
  · rename_i hquote
    split at h
    · simp at h
    · rename_i w rest hne hword
      obtain ⟨rfl, rfl⟩ := Refusal.ok_pair_inj h
      have hword' : spanWord (skipLayout cs ++ ',' :: t) = (w, rest ++ ',' :: t) := by
        rw [spanWord_append_comma, hword]
      split
      · rename_i heq
        obtain ⟨r', hcs⟩ := exists_of_append_comma ['"'] (by decide) heq
        exact absurd hcs (hquote r')
      · rw [hword']
        split
        · rename_i heq
          simp only [Prod.mk.injEq] at heq
          exact absurd heq.1 hne
        · rename_i heq
          simp only [Prod.mk.injEq] at heq
          obtain ⟨rfl, rfl⟩ := heq
          rfl

theorem stopsBefore_cast? : StopsBefore (',' :: t) cast? :=
  .option doubleColon?_append_comma (.ok none) (stopsBefore_identifier.map some)

theorem stopsBefore_keys : StopsBefore (',' :: t) (Text.separated identifier arrow?) := by
  intro cs keys r h
  obtain ⟨hend, happend⟩ := Text.separated_stopsBefore (x := ',' :: t) yields_identifier.shrinks
    takes_arrow?.consumes stopsBefore_identifier
    (fun cs r h => by rw [arrow?_append_comma, h, Option.map_some]) h
  rwa [arrow?_append_comma, hend] at happend

theorem stopsBefore_path? : StopsBefore (',' :: t) path? :=
  .option arrow?_append_comma (.ok none) (stopsBefore_keys.map some)

theorem stopsBefore_tail : StopsBefore (',' :: t) tail := by
  refine stopsBefore_cast?.bind fun first => ?_
  intro cs p r h
  simp only [aggregate?_append_comma] at h ⊢
  cases hagg : aggregate? cs with
  | none =>
    simp only [hagg] at h
    obtain ⟨rfl, rfl⟩ := Refusal.ok_pair_inj h
    rfl
  | some call =>
    obtain ⟨a, r₁⟩ := call
    simp only [hagg] at h
    obtain ⟨⟨last, r₂⟩, hlast, h⟩ := Refusal.bind_eq_ok.mp h
    obtain ⟨rfl, rfl⟩ := Refusal.ok_pair_inj h
    exact Refusal.bind_eq_ok.mpr ⟨_, stopsBefore_cast? hlast, rfl⟩

theorem stopsBefore_modifiers : StopsBefore (',' :: t) modifiers := by
  refine .option bang?_append_comma (.ok Join.plain) (stopsBefore_identifier.bind fun word => ?_)
  cases hkind : JoinKind.ofWord? word with
  | some kind =>
    simp only [hkind]
    exact .ok _
  | none =>
    simp only [hkind]
    refine .option bang?_append_comma (.ok _) fun cs join r h => ?_
    simp only [skipLayout_append_comma, spanWord_append_comma]
    cases hkind' : JoinKind.ofWord? (String.ofList (spanWord (skipLayout cs)).1) with
    | some kind =>
      simp only [hkind'] at h ⊢
      obtain ⟨rfl, rfl⟩ := Refusal.ok_pair_inj h
      rfl
    | none => simp [hkind'] at h

/-! ## Entries -/

theorem stopsBefore_countNode (label : Option String) : StopsBefore (',' :: t) (countNode label) := by
  intro cs n r h
  have hcount : StopsBefore (',' :: t) fun cs => cast? cs >>= fun p =>
      .ok (Node.field (label.getD "count") ⟨none, none, none, some .count, p.1⟩, p.2) :=
    stopsBefore_cast?.bind fun cast =>
      .ok (Node.field (label.getD "count") ⟨none, none, none, some .count, cast⟩)
  unfold countNode at h ⊢
  simp only at h ⊢
  split at h
  · exact hcount h
  · rename_i hcall
    split
    · rename_i heq
      obtain ⟨r', hcs⟩ := exists_of_append_comma ['(', ')'] (by decide) heq
      exact absurd hcs (hcall r')
    · exact hcount h

theorem stopsBefore_columnField (ident : String) (label : Option String) :
    StopsBefore (',' :: t) (columnField ident label) :=
  stopsBefore_path?.bind fun _ => stopsBefore_tail.bind fun _ => .ok _

variable {body : Reader Fault (List Node)}

theorem stopsBefore_embedField (hbody : StopsBefore (',' :: t) body) (ident : String)
    (label : Option String) : StopsBefore (',' :: t) (embedField body ident label) := by
  refine stopsBefore_modifiers.bind fun join => hbody.bind fun nodes => ?_
  cases label with
  | none => exact .ok _
  | some label => exact .ok _

theorem stopsBefore_field (hbody : StopsBefore (',' :: t) body) (ident : String)
    (label : Option String) : StopsBefore (',' :: t) (field body ident label) := by
  intro cs n r h
  unfold field at h ⊢
  simp only [skipLayout_append_comma, countFollows_append_comma] at h ⊢
  split at h
  · rename_i hcount
    rw [if_pos hcount]
    exact stopsBefore_countNode label h
  · rename_i hcount
    rw [if_neg hcount]
    split at h
    · rename_i hskip
      rw [hskip] at h ⊢
      exact stopsBefore_embedField hbody ident label h
    · rename_i hskip
      rw [hskip] at h ⊢
      exact stopsBefore_embedField hbody ident label h
    · rename_i hbang hparen
      split
      · rename_i heq
        obtain ⟨r', hcs⟩ := exists_of_append_comma ['!'] (by decide) heq
        exact absurd hcs (hbang r')
      · rename_i heq
        obtain ⟨r', hcs⟩ := exists_of_append_comma ['('] (by decide) heq
        exact absurd hcs (hparen r')
      · exact stopsBefore_columnField ident label h

theorem stopsBefore_spreadNode (hbody : StopsBefore (',' :: t) body) :
    StopsBefore (',' :: t) (spreadNode body) :=
  stopsBefore_identifier.bind fun _ => stopsBefore_modifiers.bind fun _ => hbody.bind fun _ => .ok _

theorem stopsBefore_namedNode (hbody : StopsBefore (',' :: t) body) :
    StopsBefore (',' :: t) (namedNode body) := by
  refine stopsBefore_identifier.bind fun ident => ?_
  have hlabelled : StopsBefore (',' :: t) fun cs => identifier cs >>= fun p =>
      field body p.1 (some ident) p.2 :=
    stopsBefore_identifier.bind fun target => stopsBefore_field hbody target (some ident)
  intro cs n r h
  simp only [colon?_append_comma] at h ⊢
  cases hcolon : colon? cs with
  | none =>
    simp only [hcolon] at h
    exact stopsBefore_field hbody ident none h
  | some r₀ =>
    simp only [hcolon] at h
    exact hlabelled h

/-- **An entry ends before a comma.** -/
theorem stopsBefore_node (hbody : StopsBefore (',' :: t) body) :
    StopsBefore (',' :: t) (node body) := by
  intro cs n r h
  unfold node at h ⊢
  rw [skipLayout_append_comma]
  split at h
  · rename_i hskip
    obtain ⟨rfl, rfl⟩ := Refusal.ok_pair_inj h
    rw [hskip]
    rfl
  · rename_i hskip
    rw [hskip]
    exact stopsBefore_spreadNode hbody h
  · rename_i hstar hpoints
    split
    · rename_i heq
      obtain ⟨r', hcs⟩ := exists_of_append_comma ['*'] (by decide) heq
      exact absurd hcs (hstar r')
    · rename_i heq
      obtain ⟨r', hcs⟩ := exists_of_append_comma ['.', '.', '.'] (by decide) heq
      exact absurd hcs (hpoints r')
    · exact stopsBefore_namedNode hbody h

/-! ## Lists -/

theorem exists_cons_of_query {cs r : List Char} {nodes : List Node}
    (h : query body cs = .ok (nodes, r)) (hne : nodes ≠ []) :
    ∃ c r₀, skipLayout cs = c :: r₀ ∧ c ≠ ')' := by
  unfold query at h
  split at h
  · obtain ⟨rfl, -⟩ := Refusal.ok_pair_inj h
    exact absurd rfl hne
  · obtain ⟨rfl, -⟩ := Refusal.ok_pair_inj h
    exact absurd rfl hne
  · rename_i hnil hparen
    cases hskip : skipLayout cs with
    | nil => exact absurd hskip hnil
    | cons c r₀ => exact ⟨c, r₀, rfl, fun hc => hparen r₀ (hc ▸ hskip)⟩

theorem node_skipLayout (cs : List Char) : node body (skipLayout cs) = node body cs := by
  unfold node
  rw [Text.skipLayout_skipLayout]

section Lists

variable {n : Nat} (hyields : Yields body (Body n)) (hbody : StopsBefore (',' :: t) body)
include hyields

theorem separated_of_query {cs r : List Char} {nodes : List Node} (h : query body cs = .ok (nodes, r))
    (hne : nodes ≠ []) : Text.separated (node body) comma? cs = .ok (nodes, r) := by
  obtain ⟨c, r₀, hskip, hc⟩ := exists_cons_of_query h hne
  have hshrinks := (yields_node hyields).shrinks
  rw [query_eq_separated hskip hc, ← hskip, Text.separated_eq hshrinks takes_comma?.consumes,
    node_skipLayout] at h
  rw [Text.separated_eq hshrinks takes_comma?.consumes]
  exact h

include hbody

/-- **A list that ends at its parenthesis** ends there before a comma. -/
theorem query_of_closed {cs r r' : List Char} {nodes : List Node} (h : query body cs = .ok (nodes, r))
    (hclose : skipLayout r = ')' :: r') : query body (cs ++ ',' :: t) = .ok (nodes, r ++ ',' :: t) := by
  have hskip' := skipLayout_append_comma (t := t) cs
  cases hskip : skipLayout cs with
  | nil =>
    unfold query at h
    simp only [hskip] at h
    obtain ⟨-, rfl⟩ := Refusal.ok_pair_inj h
    simp at hclose
  | cons c r₀ =>
    rw [hskip, List.cons_append] at hskip'
    by_cases hc : c = ')'
    · subst hc
      unfold query at h ⊢
      simp only [hskip] at h
      simp only [hskip']
      obtain ⟨rfl, rfl⟩ := Refusal.ok_pair_inj h
      rfl
    · rw [query_eq_separated hskip hc] at h
      rw [query_eq_separated hskip' hc]
      obtain ⟨-, happend⟩ := Text.separated_stopsBefore (yields_node hyields).shrinks
        takes_comma?.consumes (stopsBefore_node hbody) (fun _ _ => comma?_append_comma) h
      have hend : comma? (r ++ ',' :: t) = none := by
        unfold comma?
        rw [skipLayout_append_comma, hclose]
        rfl
      rwa [hend] at happend

/-- **A list that ends with its text** goes on after a comma. -/
theorem query_append_comma {cs r r' : List Char} {nodes nodes' : List Node}
    (h : query body cs = .ok (nodes, r)) (hne : nodes ≠ []) (hend : skipLayout r = [])
    (h' : query body t = .ok (nodes', r')) (hne' : nodes' ≠ []) :
    query body (cs ++ ',' :: t) = .ok (nodes ++ nodes', r') := by
  obtain ⟨c, r₀, hskip, hc⟩ := exists_cons_of_query h hne
  have hskip' : skipLayout (cs ++ ',' :: t) = c :: (r₀ ++ ',' :: t) := by
    rw [skipLayout_append_comma, hskip, List.cons_append]
  rw [query_eq_separated hskip hc] at h
  rw [query_eq_separated hskip' hc]
  obtain ⟨-, happend⟩ := Text.separated_stopsBefore (yields_node hyields).shrinks
    takes_comma?.consumes (stopsBefore_node hbody) (fun _ _ => comma?_append_comma) h
  have hcomma : comma? (r ++ ',' :: t) = some t := by
    unfold comma?
    rw [skipLayout_append_comma, hend]
    rfl
  rw [hcomma] at happend
  simp only [separated_of_query hyields h' hne'] at happend
  exact happend

end Lists

theorem stopsBefore_bodyAt (n : Nat) : StopsBefore (',' :: t) (bodyAt n) := by
  induction n with
  | zero =>
    intro cs nodes r h
    simp [bodyAt] at h
  | succ n ih =>
    intro cs nodes r h
    rw [bodyAt] at h ⊢
    obtain ⟨r₁, hopen, h⟩ := Refusal.bind_eq_ok.mp h
    refine Refusal.bind_eq_ok.mpr ⟨_, openParen_append_comma hopen, ?_⟩
    rw [skipLayout_append_comma]
    split at h
    · rename_i hskip
      obtain ⟨rfl, rfl⟩ := Refusal.ok_pair_inj h
      rw [hskip]
      rfl
    · rename_i hparen
      obtain ⟨⟨nodes', r₂⟩, hquery, h⟩ := Refusal.bind_eq_ok.mp h
      obtain ⟨r₃, hclose, h⟩ := Refusal.bind_eq_ok.mp h
      obtain ⟨rfl, rfl⟩ := Refusal.ok_pair_inj h
      split
      · rename_i heq
        obtain ⟨r', hcs⟩ := exists_of_append_comma [')'] (by decide) heq
        exact absurd hcs (hparen r')
      · have hclosed := query_of_closed (yields_bodyAt n) ih hquery (skipLayout_of_closeParen hclose)
        refine Refusal.bind_eq_ok.mpr ⟨_, hclosed, ?_⟩
        exact Refusal.bind_eq_ok.mpr ⟨_, closeParen_append_comma hclose, rfl⟩

/-! ## Whole texts -/

/-- **The blanks a text ends with are layout.** -/
def EndsInLayout (cs : List Char) : Prop :=
  ∀ c ∈ cs.reverse.takeWhile Text.isBlank, Text.isLayout c = true

theorem EndsInLayout.skipLayout_eq_nil {cs r : List Char} (h : EndsInLayout cs) (hr : r <:+ cs)
    (hblank : ∀ c ∈ r, Text.isBlank c = true) : skipLayout r = [] := by
  obtain ⟨u, hu⟩ := List.reverse_prefix.mpr hr
  refine List.dropWhile_eq_nil_iff.mpr fun c hc => h c ?_
  rw [← hu, List.takeWhile_append_of_pos fun d hd => hblank d (List.mem_reverse.mp hd)]
  exact List.mem_append_left _ (List.mem_reverse.mpr hc)

theorem parse_eq_ok {text : String} {sel : Selection} :
    parse (some text) = .ok sel ↔
      ∃ nodes, readAll text.toList = .ok nodes ∧ Selection.ofNodes nodes = sel := by
  rw [parse, Refusal.map_eq_ok, Option.getD_some]
  exact exists_congr fun nodes => and_congr_left fun _ => nodesOf_eq_ok

/-- **One list after the other.** The joins and labels of the second are written over those of the first: a
label of both keeps its place, and takes what the second says. -/
def Selection.followedBy (sel sel' : Selection) : Selection where
  items := sel.items ++ sel'.items
  join := Entries.extend sel.join sel'.join
  aliases := .node (Entries.extend sel.aliases.children sel'.aliases.children)

theorem Selection.ofNodes_append (nodes nodes' : List Node) :
    ofNodes (nodes ++ nodes') = (ofNodes nodes).followedBy (ofNodes nodes') := by
  have hjoins : joins (nodes ++ nodes') = Entries.extend (joins nodes) (joins nodes') := by
    rw [joins, List.filterMap_append, Entries.ofList_append]
    rfl
  have haliases : aliasTree (nodes ++ nodes') =
      .node (Entries.extend (aliasTree nodes).children (aliasTree nodes').children) := by
    simp only [aliasTree, AliasTree.children, aliasEntries_eq_filterMap, List.filterMap_append,
      Entries.ofList_append]
  rw [ofNodes, hjoins, haliases, itemsOf_eq_map, List.map_append, ← itemsOf_eq_map, ← itemsOf_eq_map]
  rfl

/-- **Two texts with a comma between them** say what the two say, one after the other. -/
theorem parse_append_comma {s t : String} {sel sel' : Selection} (hs : parse (some s) = .ok sel)
    (ht : parse (some t) = .ok sel') (hne : sel.items ≠ []) (hne' : sel'.items ≠ [])
    (hend : EndsInLayout s.toList) : parse (some (s ++ "," ++ t)) = .ok (sel.followedBy sel') := by
  obtain ⟨nodes, hread, rfl⟩ := parse_eq_ok.mp hs
  obtain ⟨nodes', hread', rfl⟩ := parse_eq_ok.mp ht
  obtain ⟨r, hquery, hblank⟩ := readAll_eq_ok.mp hread
  obtain ⟨r', hquery', hblank'⟩ := readAll_eq_ok.mp hread'
  have hnodes : nodes ≠ [] := by
    rintro rfl
    exact hne rfl
  have hnodes' : nodes' ≠ [] := by
    rintro rfl
    exact hne' rfl
  have hyields := yields_bodyAt maxNesting
  have hrest : skipLayout r = [] := hend.skipLayout_eq_nil (yields_query hyields hquery).2 hblank
  have hwhole : (s ++ "," ++ t).toList = s.toList ++ ',' :: t.toList := by simp
  refine parse_eq_ok.mpr ⟨nodes ++ nodes', readAll_eq_ok.mpr ⟨r', ?_, hblank'⟩,
    Selection.ofNodes_append nodes nodes'⟩
  rw [hwhole]
  exact query_append_comma hyields (stopsBefore_bodyAt maxNesting) hquery hnodes hrest hquery' hnodes'

/-- A label of both lists, after a word that is only the count of all rows before a comma or an end. -/
theorem parse_append_comma_shared :
    parse (some ("a(x),count " ++ "," ++ "a!inner(b(y))")) = .ok (Selection.followedBy
      (.ofNodes [.embed "a" .plain false [.column "x"],
        .field "count" ⟨none, none, none, some .count, none⟩])
      (.ofNodes [.embed "a" ⟨none, .inner, none⟩ false [.embed "b" .plain false [.column "y"]]])) := by
  have hend : EndsInLayout "a(x),count ".toList := by
    intro c hc
    obtain rfl : c = ' ' := by simpa [Text.isBlank] using hc
    rfl
  exact parse_append_comma (by cbv) (by cbv) (by simp [Selection.ofNodes, itemsOf])
    (by simp [Selection.ofNodes, itemsOf]) hend

end ResourceQuery.Select
