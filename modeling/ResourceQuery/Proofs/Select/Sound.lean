import Mathlib.Data.List.TakeWhile
import ResourceQuery.Proofs.Readers
import ResourceQuery.Proofs.Refusal
import ResourceQuery.Proofs.Select.WellFormed
import ResourceQuery.Select.Parser

/-! # What a select text says

Every reader of the grammar returns something well-formed and leaves an end of the text it was given. The
nodes of a text are therefore well-formed, and their embeds at most `maxNesting` deep
(`wellFormed_of_nodesOf`).

What may be counted is decided by a look ahead: after the word `count`, a cast makes it the count of all
rows. A column of that name with a cast before its aggregate has therefore a path between the two
(`isSome_doubleColon?_of_tail`). -/

namespace ResourceQuery.Select

open Text (Reader skipLayout spanWord Yields Takes)

/-! ## Tokens -/

theorem suffix_of_skipLayout {cs r : List Char} (h : skipLayout cs = r) : r <:+ cs :=
  h ▸ Text.skipLayout_suffix cs

theorem takes_comma? : Takes comma? := by
  intro cs r h
  unfold comma? at h
  split at h
  · rename_i hskip
    obtain rfl := Option.some.inj h
    exact ⟨_, suffix_of_skipLayout hskip⟩
  · simp at h

theorem takes_colon? : Takes colon? := by
  intro cs r h
  unfold colon? at h
  split at h
  · simp at h
  · rename_i hskip
    obtain rfl := Option.some.inj h
    exact ⟨_, suffix_of_skipLayout hskip⟩
  · simp at h

theorem takes_doubleColon? : Takes doubleColon? := by
  intro cs r h
  unfold doubleColon? at h
  split at h
  · rename_i hskip
    obtain rfl := Option.some.inj h
    exact ⟨_, (List.suffix_cons _ _).trans (suffix_of_skipLayout hskip)⟩
  · simp at h

theorem takes_bang? : Takes bang? := by
  intro cs r h
  unfold bang? at h
  split at h
  · rename_i hskip
    obtain rfl := Option.some.inj h
    exact ⟨_, suffix_of_skipLayout hskip⟩
  · simp at h

theorem takes_arrow? : Takes arrow? := by
  intro cs r h
  unfold arrow? at h
  split at h
  · rename_i hskip
    obtain rfl := Option.some.inj h
    exact ⟨_, ((List.suffix_cons _ _).trans (List.suffix_cons _ _)).trans (suffix_of_skipLayout hskip)⟩
  · rename_i hskip
    obtain rfl := Option.some.inj h
    exact ⟨_, (List.suffix_cons _ _).trans (suffix_of_skipLayout hskip)⟩
  · simp at h

theorem suffix_of_openParen {cs r : List Char} (h : openParen cs = .ok r) : r <:+ cs := by
  unfold openParen at h
  split at h
  · rename_i hskip
    obtain rfl := Except.ok.inj h
    exact (List.suffix_cons _ _).trans (suffix_of_skipLayout hskip)
  · simp at h

theorem suffix_of_closeParen {cs r : List Char} (h : closeParen cs = .ok r) : r <:+ cs := by
  unfold closeParen at h
  split at h
  · rename_i hskip
    obtain rfl := Except.ok.inj h
    exact (List.suffix_cons _ _).trans (suffix_of_skipLayout hskip)
  · simp at h

theorem suffix_of_aggregate? {cs r : List Char} {a : Aggregate} (h : aggregate? cs = some (a, r)) :
    r <:+ cs := by
  unfold aggregate? at h
  split at h
  · rename_i r₀ hskip
    simp only at h
    split at h
    · rename_i hw
      simp only [Option.some.injEq, Prod.mk.injEq] at h
      obtain ⟨-, rfl⟩ := h
      have hspan : (spanWord r₀).2 <:+ r₀ := List.dropWhile_suffix _
      rw [hw] at hspan
      exact ((List.suffix_cons _ _).trans (List.suffix_cons _ _)).trans
        (hspan.trans ((List.suffix_cons _ _).trans (suffix_of_skipLayout hskip)))
    · simp at h
  · simp at h

/-! ## Names -/

theorem quotedText?_eq_some {cs name rest : List Char} (h : quotedText? cs = some (name, rest)) :
    cs = name ++ '"' :: rest ∧ '"' ∉ name := by
  induction cs generalizing name with
  | nil => simp [quotedText?] at h
  | cons c cs ih =>
    unfold quotedText? at h
    split at h
    · rename_i hc
      simp only [Option.some.injEq, Prod.mk.injEq] at h
      obtain ⟨rfl, rfl⟩ := h
      simp [hc]
    · rename_i hc
      obtain ⟨⟨name', rest'⟩, hq, heq⟩ := Option.map_eq_some_iff.mp h
      simp only [Prod.map_apply, id_eq, Prod.mk.injEq] at heq
      obtain ⟨rfl, rfl⟩ := heq
      obtain ⟨rfl, hn⟩ := ih hq
      exact ⟨rfl, by simp [hn, Ne.symm hc]⟩

theorem isWordChar_quote : Text.isWordChar '"' = false := by decide

theorem yields_identifier : Yields identifier Unquoted := by
  intro cs name r h
  unfold identifier at h
  split at h
  · rename_i r₀ hskip
    split at h
    · rename_i name' rest hq
      obtain ⟨rfl, rfl⟩ := Refusal.ok_pair_inj h
      obtain ⟨rfl, hn⟩ := quotedText?_eq_some hq
      refine ⟨by simpa [Unquoted] using hn, ?_⟩
      have hr : rest <:+ name' ++ '"' :: rest := ⟨name' ++ ['"'], by simp⟩
      exact hr.trans ((List.suffix_cons _ _).trans (suffix_of_skipLayout hskip))
    · simp at h
  · split at h
    · simp at h
    · rename_i w rest _ hw
      obtain ⟨rfl, rfl⟩ := Refusal.ok_pair_inj h
      have hword : (skipLayout cs).takeWhile Text.isWordChar = w := congrArg Prod.fst hw
      have hrest : (skipLayout cs).dropWhile Text.isWordChar = rest := congrArg Prod.snd hw
      refine ⟨fun hmem => ?_, ?_⟩
      · have hall := List.all_takeWhile (p := Text.isWordChar) (l := skipLayout cs)
        rw [hword, List.all_eq_true] at hall
        have := hall '"' (by simpa using hmem)
        rw [isWordChar_quote] at this
        exact absurd this (by simp)
      · rw [← hrest]
        exact (List.dropWhile_suffix _).trans (Text.skipLayout_suffix cs)

/-! ## Columns -/

theorem yields_cast? : Yields cast? fun cast => ∀ c ∈ cast, Unquoted c := by
  intro cs cast r h
  unfold cast? at h
  split at h
  · obtain ⟨rfl, rfl⟩ := Refusal.ok_pair_inj h
    exact ⟨by simp, List.suffix_refl _⟩
  · rename_i r₀ hcolon
    obtain ⟨⟨t, rest⟩, hident, heq⟩ := Refusal.map_eq_ok.mp h
    simp only [Prod.mk.injEq] at heq
    obtain ⟨rfl, rfl⟩ := heq
    obtain ⟨ht, hsuffix⟩ := yields_identifier hident
    exact ⟨by simpa using ht, hsuffix.trans (takes_doubleColon?.suffix hcolon)⟩

theorem isSome_doubleColon?_of_cast? {cs r : List Char} {t : String}
    (h : cast? cs = .ok (some t, r)) : (doubleColon? cs).isSome := by
  unfold cast? at h
  split at h
  · simp at h
  · rename_i hcolon
    rw [hcolon]
    rfl

theorem yields_path? : Yields path? fun keys => ∀ ks ∈ keys, ks ≠ [] ∧ ∀ k ∈ ks, Unquoted k := by
  intro cs keys r h
  unfold path? at h
  split at h
  · obtain ⟨rfl, rfl⟩ := Refusal.ok_pair_inj h
    exact ⟨by simp, List.suffix_refl _⟩
  · rename_i r₀ harrow
    obtain ⟨⟨ks, rest⟩, hsep, heq⟩ := Refusal.map_eq_ok.mp h
    simp only [Prod.mk.injEq] at heq
    obtain ⟨rfl, rfl⟩ := heq
    obtain ⟨hks, hsuffix⟩ := Text.yields_separated yields_identifier takes_arrow? hsep
    exact ⟨by simpa using hks, hsuffix.trans (takes_arrow?.suffix harrow)⟩

theorem eq_of_path?_none {cs r : List Char} (h : path? cs = .ok (none, r)) : r = cs := by
  unfold path? at h
  split at h
  · simp only [Except.ok.injEq, Prod.mk.injEq] at h
    exact h.2.symm
  · obtain ⟨_, -, heq⟩ := Refusal.map_eq_ok.mp h
    simp at heq

/-- **What follows a column** casts it beforehand only for an aggregate. -/
theorem yields_tail : Yields tail fun p =>
    (∀ c ∈ p.1, Unquoted c) ∧ (p.1.isSome → p.2.1.isSome) ∧ ∀ c ∈ p.2.2, Unquoted c := by
  intro cs p r h
  unfold tail at h
  obtain ⟨⟨first, r₁⟩, hfirst, h⟩ := Refusal.bind_eq_ok.mp h
  obtain ⟨hunquoted, hsuffix⟩ := yields_cast? hfirst
  simp only at h
  split at h
  · rename_i a r₂ hagg
    obtain ⟨⟨last, r₃⟩, hlast, h⟩ := Refusal.bind_eq_ok.mp h
    obtain ⟨rfl, rfl⟩ := Refusal.ok_pair_inj h
    obtain ⟨hunquoted', hsuffix'⟩ := yields_cast? hlast
    exact ⟨⟨hunquoted, by simp, hunquoted'⟩,
      hsuffix'.trans ((suffix_of_aggregate? hagg).trans hsuffix)⟩
  · obtain ⟨rfl, rfl⟩ := Refusal.ok_pair_inj h
    exact ⟨⟨by simp, by simp, hunquoted⟩, hsuffix⟩

theorem isSome_doubleColon?_of_tail {cs r : List Char} {p : Option String × Option Aggregate × Option String}
    (h : tail cs = .ok (p, r)) (hp : p.1 ≠ none) : (doubleColon? cs).isSome := by
  unfold tail at h
  obtain ⟨⟨first, r₁⟩, hfirst, h⟩ := Refusal.bind_eq_ok.mp h
  have hsome : first ≠ none := by
    rintro rfl
    simp only at h
    split at h
    · obtain ⟨⟨last, r₃⟩, -, h⟩ := Refusal.bind_eq_ok.mp h
      obtain ⟨rfl, -⟩ := Refusal.ok_pair_inj h
      exact hp rfl
    · obtain ⟨rfl, -⟩ := Refusal.ok_pair_inj h
      exact hp rfl
  obtain ⟨t, rfl⟩ := Option.ne_none_iff_exists'.mp hsome
  exact isSome_doubleColon?_of_cast? hfirst

theorem unquoted_pathText {keys : List String} (h : ∀ k ∈ keys, Unquoted k) :
    Unquoted (pathText keys) := by
  intro hmem
  rw [pathText, String.toList_ofList, List.mem_cons, List.mem_cons] at hmem
  obtain hmem | hmem | hmem := hmem
  · exact absurd hmem (by decide)
  · exact absurd hmem (by decide)
  · obtain hmem | ⟨p, hp, hc⟩ := Text.mem_joinWith hmem
    · simp at hmem
    · obtain ⟨k, hk, rfl⟩ := List.mem_map.mp hp
      exact h k hk hc

/-- **The entry of a column is well-formed** if its pieces are. -/
theorem columnNode_wellFormed {ident : String} {label : Option String} {keys : Option (List String)}
    {casts : Option String × Option Aggregate × Option String} (hident : Unquoted ident)
    (hlabel : ∀ l ∈ label, Unquoted l) (hkeys : ∀ ks ∈ keys, ks ≠ [] ∧ ∀ k ∈ ks, Unquoted k)
    (hcasts : (∀ c ∈ casts.1, Unquoted c) ∧ (casts.1.isSome → casts.2.1.isSome) ∧
      ∀ c ∈ casts.2.2, Unquoted c)
    (hcount : keys = none → ident = "count" → casts.1 = none) :
    (columnNode ident label keys casts).WellFormed := by
  obtain ⟨preCast, aggregate, cast⟩ := casts
  obtain ⟨hpre, hagg, hcast⟩ := hcasts
  have hkey : Unquoted ((label.or (keys.bind List.getLast?)).getD ident) := by
    cases label with
    | some l => exact hlabel l rfl
    | none =>
      cases keys with
      | none => exact hident
      | some ks =>
        obtain ⟨hne, hks⟩ := hkeys ks rfl
        rw [Option.none_or, Option.bind_some, List.getLast?_eq_some_getLast hne]
        exact hks _ (List.getLast_mem hne)
  unfold columnNode
  simp only
  split
  · exact .column hident
  · refine .field hkey (.computed hident ?_ hpre hcast hagg ?_)
    · intro p hp
      obtain ⟨ks, rfl, rfl⟩ := Option.map_eq_some_iff.mp hp
      refine ⟨unquoted_pathText (hkeys ks rfl).2, _, by rw [pathText, String.toList_ofList]⟩
    · intro hnone hcolumn
      exact hcount (Option.map_eq_none_iff.mp hnone) hcolumn

theorem depth_columnNode (ident : String) (label : Option String) (keys : Option (List String))
    (casts : Option String × Option Aggregate × Option String) :
    (columnNode ident label keys casts).item.depth = 0 := by
  unfold columnNode
  simp only
  split <;> rfl

/-! ## Entries -/

/-- **What is said of a join** leaves the resource to the label. -/
theorem yields_modifiers : Yields modifiers fun join => join.WellFormed ∧ join.resource = none := by
  intro cs join r h
  unfold modifiers at h
  split at h
  · obtain ⟨rfl, rfl⟩ := Refusal.ok_pair_inj h
    exact ⟨⟨⟨by simp [Join.plain], by simp [Join.plain]⟩, rfl⟩, List.suffix_refl _⟩
  · rename_i r₀ hbang
    obtain ⟨⟨word, r₁⟩, hident, h⟩ := Refusal.bind_eq_ok.mp h
    obtain ⟨hword, hsuffix⟩ := yields_identifier hident
    have hsuffix := hsuffix.trans (takes_bang?.suffix hbang)
    simp only at h
    split at h
    · obtain ⟨rfl, rfl⟩ := Refusal.ok_pair_inj h
      exact ⟨⟨⟨by simp, by simp⟩, rfl⟩, hsuffix⟩
    · rename_i hkind
      have hhint : ∀ h ∈ some word, Unquoted h ∧ JoinKind.ofWord? h = none := by
        rintro _ ⟨⟩
        exact ⟨hword, hkind⟩
      split at h
      · obtain ⟨rfl, rfl⟩ := Refusal.ok_pair_inj h
        exact ⟨⟨⟨by simp, hhint⟩, rfl⟩, hsuffix⟩
      · rename_i r₂ hbang'
        split at h
        · obtain ⟨rfl, rfl⟩ := Refusal.ok_pair_inj h
          refine ⟨⟨⟨by simp, hhint⟩, rfl⟩, ?_⟩
          exact (List.dropWhile_suffix _).trans ((Text.skipLayout_suffix r₂).trans
            ((takes_bang?.suffix hbang').trans hsuffix))
        · simp at h

theorem yields_countNode {label : Option String} (hlabel : ∀ l ∈ label, Unquoted l) (n : Nat) :
    Yields (countNode label) fun m => m.WellFormed ∧ m.item.depth ≤ n := by
  intro cs m r h
  unfold countNode at h
  obtain ⟨⟨cast, r₁⟩, hcast, h⟩ := Refusal.bind_eq_ok.mp h
  obtain ⟨rfl, rfl⟩ := Refusal.ok_pair_inj h
  obtain ⟨hunquoted, hsuffix⟩ := yields_cast? hcast
  refine ⟨⟨.field ?_ (.rows hunquoted), Nat.zero_le n⟩, hsuffix.trans ?_⟩
  · cases label with
    | none => show '"' ∉ "count".toList; decide
    | some l => exact hlabel l rfl
  · split
    · exact (List.suffix_cons _ _).trans (List.suffix_cons _ _)
    · exact List.suffix_refl _

theorem wellFormed_of_columnField {ident : String} {label : Option String} {cs r : List Char} {m : Node}
    (h : columnField ident label cs = .ok (m, r)) (hident : Unquoted ident)
    (hlabel : ∀ l ∈ label, Unquoted l) (hcount : ident = "count" → doubleColon? cs = none) (n : Nat) :
    (m.WellFormed ∧ m.item.depth ≤ n) ∧ r <:+ cs := by
  unfold columnField at h
  obtain ⟨⟨keys, r₁⟩, hpath, h⟩ := Refusal.bind_eq_ok.mp h
  obtain ⟨⟨casts, r₂⟩, htail, h⟩ := Refusal.bind_eq_ok.mp h
  obtain ⟨rfl, rfl⟩ := Refusal.ok_pair_inj h
  obtain ⟨hkeys, hsuffix⟩ := yields_path? hpath
  obtain ⟨hcasts, hsuffix'⟩ := yields_tail htail
  refine ⟨⟨columnNode_wellFormed hident hlabel hkeys hcasts ?_, ?_⟩, hsuffix'.trans hsuffix⟩
  · rintro rfl hcolumn
    by_cases hpre : casts.1 = none
    · exact hpre
    · obtain rfl := eq_of_path?_none hpath
      have := isSome_doubleColon?_of_tail htail hpre
      rw [hcount hcolumn] at this
      exact absurd this (by simp)
  · rw [depth_columnNode]
    exact Nat.zero_le n

theorem doubleColon?_of_countFollows {cs : List Char} (h : countFollows (skipLayout cs) = false) :
    doubleColon? (skipLayout cs) = none := by
  unfold doubleColon?
  rw [Text.skipLayout_skipLayout]
  split
  · rename_i hskip
    rw [hskip] at h
    simp [countFollows] at h
  · rfl

variable {body : Reader Fault (List Node)} {n : Nat}

/-- What a body gives an embed that may be as deep as `n`. -/
def Body (n : Nat) (nodes : List Node) : Prop :=
  nodes ≠ [] ∧ ∀ m ∈ nodes, m.WellFormed ∧ m.item.depth < n

theorem embed_wellFormed {label : String} {join : Join} {spread : Bool} {nodes : List Node}
    (hlabel : Unquoted label) (hjoin : join.WellFormed)
    (hspread : spread = true → join.resource = none) (hnodes : Body n nodes) :
    (Node.embed label join spread nodes).WellFormed ∧
      (Node.embed label join spread nodes).item.depth ≤ n := by
  obtain ⟨hne, hall⟩ := hnodes
  refine ⟨.embed hlabel hjoin hspread hne fun m hm => (hall m hm).1, ?_⟩
  obtain ⟨m, hm⟩ := List.exists_mem_of_ne_nil nodes hne
  have hpos := (hall m hm).2
  have hdepth : depthOf (itemsOf nodes) ≤ n - 1 :=
    depthOf_itemsOf_le.mpr fun m' hm' => Nat.le_sub_one_of_lt (hall m' hm').2
  rw [Node.item, Item.depth]
  omega

theorem yields_embedField (hbody : Yields body (Body n)) {ident : String} {label : Option String}
    (hident : Unquoted ident) (hlabel : ∀ l ∈ label, Unquoted l) :
    Yields (embedField body ident label) fun m => m.WellFormed ∧ m.item.depth ≤ n := by
  intro cs m r h
  unfold embedField at h
  obtain ⟨⟨join, r₁⟩, hmod, h⟩ := Refusal.bind_eq_ok.mp h
  obtain ⟨⟨nodes, r₂⟩, hnodes, h⟩ := Refusal.bind_eq_ok.mp h
  obtain ⟨⟨hjoin, -⟩, hsuffix⟩ := yields_modifiers hmod
  obtain ⟨hnodes, hsuffix'⟩ := hbody hnodes
  cases label with
  | none =>
    obtain ⟨rfl, rfl⟩ := Refusal.ok_pair_inj h
    exact ⟨embed_wellFormed hident hjoin (by simp) hnodes, hsuffix'.trans hsuffix⟩
  | some l =>
    obtain ⟨rfl, rfl⟩ := Refusal.ok_pair_inj h
    refine ⟨embed_wellFormed (hlabel l rfl) ⟨?_, hjoin.hint⟩ (by simp) hnodes, hsuffix'.trans hsuffix⟩
    rintro _ ⟨⟩
    exact hident

theorem yields_field (hbody : Yields body (Body n)) {ident : String} {label : Option String}
    (hident : Unquoted ident) (hlabel : ∀ l ∈ label, Unquoted l) :
    Yields (field body ident label) fun m => m.WellFormed ∧ m.item.depth ≤ n := by
  intro cs m r h
  have hskip := Text.skipLayout_suffix cs
  unfold field at h
  simp only at h
  split at h
  · obtain ⟨hm, hsuffix⟩ := yields_countNode hlabel n h
    exact ⟨hm, hsuffix.trans hskip⟩
  · rename_i hcount
    split at h
    · obtain ⟨hm, hsuffix⟩ := yields_embedField hbody hident hlabel h
      exact ⟨hm, hsuffix.trans hskip⟩
    · obtain ⟨hm, hsuffix⟩ := yields_embedField hbody hident hlabel h
      exact ⟨hm, hsuffix.trans hskip⟩
    · have hcolon : ident = "count" → doubleColon? (skipLayout cs) = none := by
        intro hident
        refine doubleColon?_of_countFollows ?_
        cases hfollows : countFollows (skipLayout cs) with
        | false => rfl
        | true => exact absurd ⟨hident, hfollows⟩ hcount
      obtain ⟨hm, hsuffix⟩ := wellFormed_of_columnField h hident hlabel hcolon n
      exact ⟨hm, hsuffix.trans hskip⟩

theorem yields_spreadNode (hbody : Yields body (Body n)) :
    Yields (spreadNode body) fun m => m.WellFormed ∧ m.item.depth ≤ n := by
  intro cs m r h
  unfold spreadNode at h
  obtain ⟨⟨label, r₁⟩, hident, h⟩ := Refusal.bind_eq_ok.mp h
  obtain ⟨⟨join, r₂⟩, hmod, h⟩ := Refusal.bind_eq_ok.mp h
  obtain ⟨⟨nodes, r₃⟩, hnodes, h⟩ := Refusal.bind_eq_ok.mp h
  obtain ⟨rfl, rfl⟩ := Refusal.ok_pair_inj h
  obtain ⟨hlabel, hsuffix⟩ := yields_identifier hident
  obtain ⟨⟨hjoin, hresource⟩, hsuffix'⟩ := yields_modifiers hmod
  obtain ⟨hnodes, hsuffix''⟩ := hbody hnodes
  exact ⟨embed_wellFormed hlabel hjoin (fun _ => hresource) hnodes,
    hsuffix''.trans (hsuffix'.trans hsuffix)⟩

theorem yields_namedNode (hbody : Yields body (Body n)) :
    Yields (namedNode body) fun m => m.WellFormed ∧ m.item.depth ≤ n := by
  intro cs m r h
  unfold namedNode at h
  obtain ⟨⟨ident, r₁⟩, hident, h⟩ := Refusal.bind_eq_ok.mp h
  obtain ⟨hlabel, hsuffix⟩ := yields_identifier hident
  simp only at h
  split at h
  · rename_i r₂ hcolon
    obtain ⟨⟨target, r₃⟩, htarget, h⟩ := Refusal.bind_eq_ok.mp h
    obtain ⟨hunquoted, hsuffix'⟩ := yields_identifier htarget
    obtain ⟨hm, hsuffix''⟩ := yields_field hbody hunquoted (by simpa using hlabel) h
    exact ⟨hm, hsuffix''.trans (hsuffix'.trans ((takes_colon?.suffix hcolon).trans hsuffix))⟩
  · obtain ⟨hm, hsuffix'⟩ := yields_field hbody hlabel (by simp) h
    exact ⟨hm, hsuffix'.trans hsuffix⟩

/-- **An entry is well-formed**, and as deep as its body may be. -/
theorem yields_node (hbody : Yields body (Body n)) :
    Yields (node body) fun m => m.WellFormed ∧ m.item.depth ≤ n := by
  intro cs m r h
  unfold node at h
  split at h
  · rename_i hskip
    obtain ⟨rfl, rfl⟩ := Refusal.ok_pair_inj h
    exact ⟨⟨.star, Nat.zero_le n⟩, (List.suffix_cons _ _).trans (suffix_of_skipLayout hskip)⟩
  · rename_i hskip
    obtain ⟨hm, hsuffix⟩ := yields_spreadNode hbody h
    refine ⟨hm, hsuffix.trans (List.IsSuffix.trans ?_ (suffix_of_skipLayout hskip))⟩
    exact ((List.suffix_cons _ _).trans (List.suffix_cons _ _)).trans (List.suffix_cons _ _)
  · obtain ⟨hm, hsuffix⟩ := yields_namedNode hbody h
    exact ⟨hm, hsuffix.trans (Text.skipLayout_suffix cs)⟩

/-! ## Lists -/

theorem query_eq_separated {cs : List Char} {c : Char} {r : List Char} (hskip : skipLayout cs = c :: r)
    (hc : c ≠ ')') : query body cs = Text.separated (node body) comma? (c :: r) := by
  unfold query
  rw [hskip]
  split
  · simp_all
  · simp_all
  · rfl

theorem yields_query (hbody : Yields body (Body n)) :
    Yields (query body) fun nodes => ∀ m ∈ nodes, m.WellFormed ∧ m.item.depth ≤ n := by
  intro cs nodes r h
  cases hskip : skipLayout cs with
  | nil =>
    unfold query at h
    simp only [hskip] at h
    obtain ⟨rfl, rfl⟩ := Refusal.ok_pair_inj h
    exact ⟨by simp, List.nil_suffix⟩
  | cons c r₀ =>
    by_cases hc : c = ')'
    · subst hc
      unfold query at h
      simp only [hskip] at h
      obtain ⟨rfl, rfl⟩ := Refusal.ok_pair_inj h
      exact ⟨by simp, suffix_of_skipLayout hskip⟩
    · rw [query_eq_separated hskip hc] at h
      obtain ⟨⟨-, hnodes⟩, hsuffix⟩ :=
        Text.yields_separated (yields_node hbody) takes_comma? h
      exact ⟨hnodes, hsuffix.trans (suffix_of_skipLayout hskip)⟩

theorem bodyAt_eq (n : Nat) (cs : List Char) : bodyAt (n + 1) cs = openParen cs >>= fun r =>
    if (skipLayout r).head? = some ')' then (closeParen r).map fun s => ([.star], s)
    else query (bodyAt n) r >>= fun p => (closeParen p.2).map fun s => (p.1, s) := by
  rw [bodyAt]
  refine congrArg (openParen cs >>= ·) (funext fun r => ?_)
  split
  · rename_i s hskip
    rw [closeParen, hskip]
    rfl
  · rename_i hparen
    rw [if_neg]
    · cases query (bodyAt n) r with
      | error f => rfl
      | ok p =>
        change closeParen p.2 >>= _ = (closeParen p.2).map _
        cases closeParen p.2 <;> rfl
    · intro hhead
      obtain ⟨s, hs⟩ := List.head?_eq_some_iff.mp hhead
      exact hparen s hs

theorem yields_bodyAt (n : Nat) : Yields (bodyAt n) (Body n) := by
  induction n with
  | zero =>
    intro cs nodes r h
    simp [bodyAt] at h
  | succ n ih =>
    intro cs nodes r h
    rw [bodyAt] at h
    obtain ⟨r₁, hopen, h⟩ := Refusal.bind_eq_ok.mp h
    have hsuffix := suffix_of_openParen hopen
    split at h
    · rename_i hskip
      obtain ⟨rfl, rfl⟩ := Refusal.ok_pair_inj h
      refine ⟨⟨by simp, ?_⟩,
        (List.suffix_cons _ _).trans ((suffix_of_skipLayout hskip).trans hsuffix)⟩
      intro m hm
      obtain rfl := List.mem_singleton.mp hm
      exact ⟨.star, Nat.succ_pos n⟩
    · rename_i hparen
      obtain ⟨⟨nodes', r₂⟩, hquery, h⟩ := Refusal.bind_eq_ok.mp h
      obtain ⟨r₃, hclose, h⟩ := Refusal.bind_eq_ok.mp h
      obtain ⟨rfl, rfl⟩ := Refusal.ok_pair_inj h
      obtain ⟨hall, hsuffix'⟩ := yields_query ih hquery
      refine ⟨⟨?_, fun m hm => ⟨(hall m hm).1, Nat.lt_succ_of_le (hall m hm).2⟩⟩,
        (suffix_of_closeParen hclose).trans (hsuffix'.trans hsuffix)⟩
      -- an empty list would have to be closed, or end the text
      cases hskip : skipLayout r₁ with
      | nil =>
        unfold query at hquery
        simp only [hskip] at hquery
        obtain ⟨-, rfl⟩ := Refusal.ok_pair_inj hquery
        simp [closeParen] at hclose
      | cons c r₀ =>
        have hc : c ≠ ')' := by
          rintro rfl
          exact hparen r₀ hskip
        rw [query_eq_separated hskip hc] at hquery
        exact (Text.yields_separated (yields_node ih) takes_comma? hquery).1.1

theorem readAll_eq_ok {cs : List Char} {nodes : List Node} :
    readAll cs = .ok nodes ↔
      ∃ r, query (bodyAt maxNesting) cs = .ok (nodes, r) ∧ ∀ c ∈ r, Text.isBlank c = true := by
  unfold readAll
  rw [Refusal.bind_eq_ok]
  constructor
  · rintro ⟨⟨nodes', r⟩, hquery, h⟩
    simp only at h
    split at h
    · rename_i htrim
      obtain rfl := Except.ok.inj h
      exact ⟨r, hquery, List.dropWhile_eq_nil_iff.mp htrim⟩
    · simp at h
  · rintro ⟨r, hquery, hblank⟩
    refine ⟨(nodes, r), hquery, ?_⟩
    have htrim : Text.trimStart r = [] := List.dropWhile_eq_nil_iff.mpr hblank
    simp only [htrim]
    rfl

theorem nodesOf_eq_ok {text : String} {nodes : List Node} :
    nodesOf text = .ok nodes ↔ readAll text.toList = .ok nodes := by
  unfold nodesOf
  cases readAll text.toList <;> simp

/-- **The nodes of a text are well-formed and not too deep.** -/
theorem wellFormed_of_nodesOf {text : String} {nodes : List Node} (h : nodesOf text = .ok nodes) :
    ∀ m ∈ nodes, m.WellFormed ∧ m.item.depth ≤ maxNesting := by
  obtain ⟨r, hquery, -⟩ := readAll_eq_ok.mp (nodesOf_eq_ok.mp h)
  exact (yields_query (yields_bodyAt maxNesting) hquery).1

theorem depthOf_le_of_nodesOf {text : String} {nodes : List Node} (h : nodesOf text = .ok nodes) :
    depthOf (itemsOf nodes) ≤ maxNesting :=
  depthOf_itemsOf_le.mpr fun n hn => (wellFormed_of_nodesOf h n hn).2

end ResourceQuery.Select
