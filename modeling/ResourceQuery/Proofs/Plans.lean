import Mathlib
import ResourceQuery.Meta

/-! # The options of a plan

A request for a plan names the plan's type among the accepted ones, and the options as the last parameter of
that range of types (`PlanRange`). The options are looked for in the text of all accepted types, not in the
range. What is read so depends on what else stands there: on something earlier in the range that has the name
of the options in it, and on the ranges that follow, since a semicolon ends the options and a comma does not.

* `after?_accept`: where the options are found. The ranges before the plan's are passed over, unless one of
  them has the name of the options in it.
* `words_bars`, `words_bars_append_comma`: the words that are read there, with nothing and with a further
  range behind them. In the latter case the last word runs into that range and is lost.
* `explain_of_accept`: a plan is asked for, and an option is set exactly if its word is read. -/

namespace ResourceQuery

/-! ## Options -/

/-- What a plan may show beyond the plan. -/
inductive PlanOption where
  | analyze
  | verbose
  | settings
  | buffers
  | wal
deriving DecidableEq, Repr

namespace PlanOption

/-- The word for the option. -/
def word : PlanOption → String
  | analyze => "analyze"
  | verbose => "verbose"
  | settings => "settings"
  | buffers => "buffers"
  | wal => "wal"

/-- Whether the option is set. -/
def get : PlanOption → ExplainOptions → Bool
  | analyze, o => o.analyze
  | verbose, o => o.verbose
  | settings, o => o.settings
  | buffers, o => o.buffers
  | wal, o => o.wal

theorem word_mem_map (x : PlanOption) (fs : List String) :
    x.word.toList ∈ fs.map String.toList ↔ x.word ∈ fs :=
  List.mem_map_of_injective fun _ _ => String.toList_injective

theorem comma_not_mem_word (x : PlanOption) : ',' ∉ x.word.toList := by cases x <;> decide

@[simp] theorem get_none (x : PlanOption) : x.get .none = false := by cases x <;> rfl

theorem get_set (x : PlanOption) (o : ExplainOptions) (cs : List Char) :
    x.get (o.set cs) = (x.get o || decide (cs = x.word.toList)) := by
  unfold ExplainOptions.set
  split_ifs with h h h h h
  case neg => cases x <;> simp_all [get, word]
  -- the text is one of the five words, and the option is its own or another one
  all_goals
    subst h
    cases x <;> simp [get, word]

theorem get_foldl_set (x : PlanOption) (words : List (List Char)) (o : ExplainOptions) :
    x.get (words.foldl ExplainOptions.set o) = true ↔ x.get o = true ∨ x.word.toList ∈ words := by
  induction words generalizing o with
  | nil => simp
  | cons cs words ih =>
    rw [List.foldl_cons, ih, get_set, Bool.or_eq_true, decide_eq_true_iff, or_assoc, List.mem_cons,
      eq_comm (a := cs)]

end PlanOption

/-! ## Words between bars -/

namespace ExplainOptions

/-- What options follow. -/
def key : List Char := "options=".toList

theorem isBlank_of_mem_key : ∀ c ∈ key, Text.isBlank c = false := by
  have h : key.all (!Text.isBlank ·) = true := by decide
  simpa only [List.all_eq_true, Bool.not_eq_true'] using h

/-- The words between bars, up to the next semicolon. -/
def words (cs : List Char) : List (List Char) :=
  (Text.splitOn '|' (cs.takeWhile (· != ';'))).map Text.trim

theorem parse_eq {accept : String} {rest : List Char} (h : Text.after? key accept.toList = some rest) :
    parse accept = (words rest).foldl set none := by
  have h : Text.after? "options=".toList accept.toList = some rest := h
  rw [parse, h]
  rfl

/-- A word of an option: no blank, and nothing that ends it. -/
def IsWord (cs : List Char) : Prop :=
  ∀ c ∈ cs, Text.isBlank c = false ∧ c ≠ ',' ∧ c ≠ ';' ∧ c ≠ '|'

instance (cs : List Char) : Decidable (IsWord cs) :=
  decidable_of_iff ((cs.all fun c => !Text.isBlank c && c != ',' && c != ';' && c != '|') = true) (by
    simp [IsWord, List.all_eq_true, and_assoc])

theorem words_append_semicolon (cs rest : List Char) : words (cs ++ ';' :: rest) = words cs := by
  have h : (cs ++ ';' :: rest).takeWhile (· != ';') = cs.takeWhile (· != ';') := by
    induction cs with
    | nil => rfl
    | cons c cs ih => rw [List.cons_append, List.takeWhile_cons, List.takeWhile_cons, ih]
  rw [words, words, h]

/-- **An option is set exactly if its word was read.** -/
theorem get_parse {accept : String} {rest : List Char} (h : Text.after? key accept.toList = some rest)
    (x : PlanOption) : x.get (parse accept) = true ↔ x.word.toList ∈ words rest := by
  rw [parse_eq h, PlanOption.get_foldl_set]
  simp

end ExplainOptions

/-! ## The accepted types -/

/-- **A range of types that asks for a plan**: a format, with any parameters, and the options as a last one. -/
structure PlanRange where
  format : String
  blanks : String
  flags : List String
  isBlank_of_mem : ∀ c ∈ blanks.toList, Text.isBlank c = true
  ne_nil : flags ≠ []
  isWord_of_mem : ∀ f ∈ flags, ExplainOptions.IsWord f.toList

namespace PlanRange

/-- The range as it is written. -/
def text (p : PlanRange) : String :=
  Meta.planType ++ p.format ++ ";" ++ p.blanks ++ "options=" ++ String.intercalate "|" p.flags

/-- The words of a range, with bars between them. -/
def bars (p : PlanRange) : List Char := Text.joinWith ['|'] (p.flags.map String.toList)

theorem toList_text (p : PlanRange) :
    p.text.toList = "application/vnd.pgrst.plan".toList ++ '+' ::
      (p.format.toList ++ ';' :: (p.blanks.toList ++ (ExplainOptions.key ++ p.bars))) := by
  have htype : Meta.planType.toList = "application/vnd.pgrst.plan".toList ++ ['+'] := by decide
  simp only [text, bars, String.toList_append, Text.toList_intercalate, htype, List.append_assoc,
    List.singleton_append]
  rfl

/-- **What is found in a range**: the options, unless something earlier has their name in it. -/
theorem after?_text (p : PlanRange) (rest : List Char) :
    Text.after? ExplainOptions.key (p.text.toList ++ rest) =
      ((Text.after? ExplainOptions.key p.format.toList).map
        (· ++ ';' :: (p.blanks.toList ++ (ExplainOptions.key ++ (p.bars ++ rest))))).or
      (some (p.bars ++ rest)) := by
  have htype : Text.after? ExplainOptions.key "application/vnd.pgrst.plan".toList = none := by decide
  have hblanks : ∀ c ∈ p.blanks.toList, c ∉ ExplainOptions.key := by
    intro c hc hkey
    have hnot := ExplainOptions.isBlank_of_mem_key c hkey
    rw [p.isBlank_of_mem c hc] at hnot
    cases hnot
  rw [toList_text]
  simp only [List.append_assoc, List.cons_append]
  rw [Text.after?_append_cons (by decide), htype, Option.map_none, Option.none_or,
    Text.after?_append_cons (by decide), Text.after?_append_of_forall (by decide) hblanks,
    Text.after?_append]

section Flags
variable (p : PlanRange)

theorem bar_not_mem : ∀ cs ∈ p.flags.map String.toList, '|' ∉ cs := by
  rintro cs hcs hbar
  obtain ⟨f, hf, rfl⟩ := List.mem_map.mp hcs
  exact (p.isWord_of_mem f hf '|' hbar).2.2.2 rfl

theorem trim_of_mem : ∀ cs ∈ p.flags.map String.toList, Text.trim cs = cs := by
  rintro cs hcs
  obtain ⟨f, hf, rfl⟩ := List.mem_map.mp hcs
  exact Text.trim_of_forall_not fun c hc => (p.isWord_of_mem f hf c hc).1

theorem takeWhile_bars_append (rest : List Char) :
    (p.bars ++ rest).takeWhile (· != ';') = p.bars ++ rest.takeWhile (· != ';') := by
  refine List.takeWhile_append_of_pos fun c hc => ?_
  obtain hbar | ⟨cs, hcs, hc⟩ := Text.mem_joinWith hc
  · rw [List.mem_singleton.mp hbar]
    decide
  · obtain ⟨f, hf, rfl⟩ := List.mem_map.mp hcs
    simpa using (p.isWord_of_mem f hf c hc).2.2.1

/-- **Alone, the options are read as they were written.** -/
theorem words_bars : ExplainOptions.words p.bars = p.flags.map String.toList := by
  have hne : p.flags.map String.toList ≠ [] := by simpa using p.ne_nil
  have htake := p.takeWhile_bars_append []
  rw [List.append_nil, List.takeWhile_nil, List.append_nil] at htake
  rw [ExplainOptions.words, htake, bars, Text.splitOn_joinWith hne p.bar_not_mem]
  exact (List.map_congr_left p.trim_of_mem).trans (List.map_id _)

/-- **With a comma behind them, the last one is lost**: up to the next bar the text is no word of an option,
and what stands between later bars is read as well. -/
theorem words_bars_append_comma (rest : List Char) :
    ∃ junk : List Char, ',' ∈ junk ∧ ExplainOptions.words (p.bars ++ ',' :: rest) =
      p.flags.dropLast.map String.toList ++ junk :: (ExplainOptions.words (',' :: rest)).tail := by
  obtain ⟨last, hlast⟩ : ∃ last, p.flags.dropLast ++ [last] = p.flags :=
    ⟨p.flags.getLast p.ne_nil, List.dropLast_append_getLast p.ne_nil⟩
  have hwords : p.flags.map String.toList = p.flags.dropLast.map String.toList ++ [last.toList] := by
    rw [← List.map_singleton, ← List.map_append, hlast]
  have hbars : ∀ cs ∈ p.flags.dropLast.map String.toList, '|' ∉ cs ∧ Text.trim cs = cs := by
    intro cs hcs
    have hmem : cs ∈ p.flags.map String.toList := by rw [hwords]; exact List.mem_append_left _ hcs
    exact ⟨p.bar_not_mem cs hmem, p.trim_of_mem cs hmem⟩
  have hbar : '|' ∉ last.toList := p.bar_not_mem _ (by rw [hwords]; simp)
  have htake : (',' :: rest).takeWhile (· != ';') = ',' :: rest.takeWhile (· != ';') := rfl
  -- The first piece of what follows begins with the comma, and goes to the last word.
  obtain ⟨q, qs, -, hcomma⟩ := Text.splitOn_cons_of_ne (show ',' ≠ '|' by decide)
    (rest.takeWhile (· != ';'))
  obtain ⟨_, _, hpieces, hjunk⟩ :=
    Text.splitOn_append_of_not_mem (b := ',' :: rest.takeWhile (· != ';')) hbar
  obtain ⟨rfl, rfl⟩ := List.cons.inj (hpieces.symm.trans hcomma)
  have htrim : (p.flags.dropLast.map String.toList).map Text.trim = p.flags.dropLast.map String.toList :=
    (List.map_congr_left fun cs hcs => (hbars cs hcs).2).trans (List.map_id _)
  refine ⟨Text.trim (last.toList ++ ',' :: q), Text.mem_trim_of_mem (by decide) (by simp), ?_⟩
  rw [ExplainOptions.words, takeWhile_bars_append, ExplainOptions.words, htake, hcomma, bars, hwords,
    Text.splitOn_joinWith_append fun cs hcs => (hbars cs hcs).1, hjunk, List.map_append, List.map_cons, htrim,
    List.map_cons, List.tail_cons]

end Flags

end PlanRange

namespace Meta

/-! ## A range among others -/

/-- What stands behind a range in the list: the other ranges, each after a comma and a blank. -/
def following (rs : List String) : List Char := rs.flatMap fun r => ',' :: ' ' :: r.toList

theorem toList_intercalate_cons (r : String) (rs : List String) :
    (String.intercalate ", " (r :: rs)).toList = r.toList ++ following rs := by
  induction rs generalizing r with
  | nil => simp [following]
  | cons q rs ih =>
    rw [String.intercalate_cons_cons, String.toList_append, String.toList_append, ih, List.append_assoc]
    rfl

/-- **Ranges without the name of the options are passed over.** -/
theorem after?_intercalate_append {rs : List String} (hrs : ∀ r ∈ rs, ¬ ExplainOptions.key <:+: r.toList)
    (q : String) (qs : List String) :
    Text.after? ExplainOptions.key (String.intercalate ", " (rs ++ q :: qs)).toList =
      Text.after? ExplainOptions.key (String.intercalate ", " (q :: qs)).toList := by
  induction rs with
  | nil => rfl
  | cons r rs ih =>
    have hr : Text.after? ExplainOptions.key r.toList = none :=
      Text.after?_eq_none.mpr (hrs r List.mem_cons_self)
    obtain ⟨t, ts, hts⟩ := List.exists_cons_of_ne_nil (show rs ++ q :: qs ≠ [] by simp)
    have hcomma : (", " : String).toList = [',', ' '] := rfl
    rw [List.cons_append, hts, String.intercalate_cons_cons, ← hts, String.toList_append,
      String.toList_append, hcomma, List.append_assoc, List.cons_append,
      Text.after?_append_cons (by decide), hr, Option.map_none, Option.none_or,
      Text.after?_append_of_forall (by decide) (List.forall_mem_singleton.mpr (by decide)),
      ih fun s hs => hrs s (List.mem_cons_of_mem r hs)]

theorem infix_intercalate {r : String} {rs : List String} (h : r ∈ rs) :
    r.toList <:+: (String.intercalate ", " rs).toList := by
  induction rs with
  | nil => cases h
  | cons q rs ih =>
    rcases List.mem_cons.mp h with rfl | h
    · rw [toList_intercalate_cons]
      exact (List.prefix_append _ _).isInfix
    · obtain ⟨t, ts, rfl⟩ := List.exists_cons_of_ne_nil (List.ne_nil_of_mem h)
      rw [String.intercalate_cons_cons, String.toList_append]
      exact (ih h).trans (List.suffix_append _ _).isInfix

section Accept
variable {headers : RequestHeaders} {before after : List String} {plan : PlanRange}
  (haccept : headers.accept = String.intercalate ", " (before ++ plan.text :: after))
include haccept

theorem explain_eq (params : QueryParams) (method : Method) :
    (ofRequest headers params method).explain = some (ExplainOptions.parse headers.accept) := by
  have htype : planType.toList <:+: plan.text.toList := by
    simp only [PlanRange.text, String.toList_append, List.append_assoc]
    exact (List.prefix_append _ _).isInfix
  have hinfix : planType.toList <:+: headers.accept.toList := by
    rw [haccept]
    exact htype.trans (infix_intercalate (by simp))
  exact if_pos (Text.occurs_iff.mpr hinfix)

theorem after?_accept (hbefore : ∀ r ∈ before, ¬ ExplainOptions.key <:+: r.toList) :
    Text.after? ExplainOptions.key headers.accept.toList =
      ((Text.after? ExplainOptions.key plan.format.toList).map
        (· ++ ';' :: (plan.blanks.toList ++ (ExplainOptions.key ++ (plan.bars ++ following after))))).or
      (some (plan.bars ++ following after)) := by
  rw [haccept, after?_intercalate_append hbefore, toList_intercalate_cons, PlanRange.after?_text]

end Accept

/-- **The options of a plan among the accepted types.** A plan is asked for. If its range is the last one,
exactly the options that it names are set. If others follow, exactly the options that it names before its
last one, and those that stand between bars behind it. And if something earlier in the range has the name
of the options in it, what follows there is read instead. -/
theorem explain_of_accept {headers : RequestHeaders} {before after : List String} {plan : PlanRange}
    (haccept : headers.accept = String.intercalate ", " (before ++ plan.text :: after))
    (hbefore : ∀ r ∈ before, ¬ ExplainOptions.key <:+: r.toList) (params : QueryParams) (method : Method) :
    ∃ o, (ofRequest headers params method).explain = some o ∧
      (¬ ExplainOptions.key <:+: plan.format.toList → after = [] →
        ∀ x : PlanOption, x.get o = true ↔ x.word ∈ plan.flags) ∧
      (¬ ExplainOptions.key <:+: plan.format.toList → after ≠ [] →
        ∀ x : PlanOption, x.get o = true ↔
          x.word ∈ plan.flags.dropLast ∨ x.word.toList ∈ (ExplainOptions.words (following after)).tail) ∧
      ∀ rest, Text.after? ExplainOptions.key plan.format.toList = some rest →
        ∀ x : PlanOption, x.get o = true ↔ x.word.toList ∈ ExplainOptions.words rest := by
  have hfound := after?_accept haccept hbefore
  refine ⟨_, explain_eq haccept params method, fun hformat hafter x => ?_, fun hformat hafter x => ?_,
    fun rest hrest x => ?_⟩
  · rw [Text.after?_eq_none.mpr hformat, Option.map_none, Option.none_or, hafter, following,
      List.flatMap_nil, List.append_nil] at hfound
    rw [ExplainOptions.get_parse hfound, PlanRange.words_bars, PlanOption.word_mem_map]
  · rw [Text.after?_eq_none.mpr hformat, Option.map_none, Option.none_or] at hfound
    obtain ⟨r, rs, rfl⟩ := List.exists_cons_of_ne_nil hafter
    obtain ⟨junk, hjunk, hwords⟩ := plan.words_bars_append_comma (' ' :: r.toList ++ following rs)
    have hne : x.word.toList ≠ junk := fun h => x.comma_not_mem_word (h ▸ hjunk)
    have hfollowing : following (r :: rs) = ',' :: (' ' :: r.toList ++ following rs) := rfl
    rw [ExplainOptions.get_parse hfound, hfollowing, hwords, List.mem_append, List.mem_cons,
      PlanOption.word_mem_map]
    simp [hne]
  · rw [hrest, Option.map_some, Option.some_or] at hfound
    rw [ExplainOptions.get_parse hfound, ExplainOptions.words_append_semicolon]

/-- Of two options the first one is set, with a range on either side and one of them in a header of its own. -/
theorem explain_of_accept_between :
    let plan : PlanRange :=
      ⟨"json; charset=utf-8", " ", ["analyze", "wal"], by simp [Text.isBlank], by decide, by decide⟩
    let lines := [("Accept", "text/html, application/vnd.pgrst.plan+json; charset=utf-8; options=analyze|wal"),
      ("accept", "*/*;q=0.1")]
    let headers := RequestHeaders.ofRequest ⟨.get, "/t", lines, [], none⟩ .get
    headers.accept = String.intercalate ", " (["text/html"] ++ plan.text :: ["*/*;q=0.1"]) ∧
      ∃ o, (ofRequest headers .empty .get).explain = some o ∧
        ∀ x : PlanOption, x.get o = true ↔ x = .analyze := by
  intro plan lines headers
  have haccept : headers.accept = String.intercalate ", " (["text/html"] ++ plan.text :: ["*/*;q=0.1"]) := by
    decide
  have hbefore : ∀ r ∈ ["text/html"], ¬ ExplainOptions.key <:+: r.toList := by
    simp only [List.forall_mem_singleton, ← Text.after?_eq_none]
    decide
  have hformat : ¬ ExplainOptions.key <:+: plan.format.toList := Text.after?_eq_none.mp (by decide)
  obtain ⟨o, ho, -, hlast, -⟩ := explain_of_accept haccept hbefore .empty .get
  refine ⟨haccept, o, ho, fun x => (hlast hformat (by simp) x).trans ?_⟩
  cases x <;> decide

/-- **A range behind the plan's takes its last option away**: it is named, and not set. -/
theorem exists_option_lost :
    ∃ (headers : RequestHeaders) (plan : PlanRange) (after : List String) (x : PlanOption),
      headers.accept = String.intercalate ", " (plan.text :: after) ∧
      (∀ r ∈ after, ¬ ExplainOptions.key <:+: r.toList ∧ ¬ planType.toList <:+: r.toList) ∧
      ¬ ExplainOptions.key <:+: plan.format.toList ∧ x.word ∈ plan.flags ∧
      (ofRequest headers .empty .get).explain.map x.get = some false := by
  refine ⟨⟨none, [], "application/vnd.pgrst.plan+json; options=analyze, text/html"⟩,
    ⟨"json", " ", ["analyze"], by simp [Text.isBlank], by decide, by decide⟩, ["text/html"], .analyze,
    by decide, ?_, Text.after?_eq_none.mp (by decide), by decide, by decide⟩
  simp only [List.forall_mem_singleton, ← Text.after?_eq_none]
  decide

end Meta

end ResourceQuery
