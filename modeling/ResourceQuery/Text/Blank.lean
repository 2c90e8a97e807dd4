/-! # Blanks

Two classes of space. `isBlank` is Unicode's White_Space property; values of query parameters and
headers are trimmed by it. `isLayout` is the four characters that may stand between the tokens of a
select list or of a logical group.

* `trim_eq_self`: a text with no blank at either end is left alone.
* `trim_append`: blanks put around such a text are taken off again.
* `isBlank_of_isLayout`: layout is blank. -/

namespace ResourceQuery.Text

/-- Unicode's White_Space. -/
def isBlank (c : Char) : Bool :=
  let n := c.toNat
  (0x9 ≤ n && n ≤ 0xD) || n == 0x20 || n == 0x85 || n == 0xA0 || n == 0x1680 ||
    (0x2000 ≤ n && n ≤ 0x200A) || n == 0x2028 || n == 0x2029 || n == 0x202F || n == 0x205F ||
    n == 0x3000

/-- Space, tab, carriage return and line feed. -/
def isLayout (c : Char) : Bool := c == ' ' || c == '\t' || c == '\r' || c == '\n'

/-- The text from its first character that is no blank. -/
def trimStart (cs : List Char) : List Char := cs.dropWhile isBlank

/-- The text up to its last character that is no blank. -/
def trimEnd (cs : List Char) : List Char := (cs.reverse.dropWhile isBlank).reverse

/-- The text without the blanks at its ends. -/
def trim (cs : List Char) : List Char := trimEnd (trimStart cs)

/-- The text after the layout it starts with. -/
def skipLayout (cs : List Char) : List Char := cs.dropWhile isLayout

theorem isBlank_of_isLayout {c : Char} (h : isLayout c = true) : isBlank c = true := by
  simp only [isLayout, Bool.or_eq_true, beq_iff_eq] at h
  rcases h with ((rfl | rfl) | rfl) | rfl <;> decide

/-! ## Trimming -/

/-- No blank at either end. -/
def Trimmed (cs : List Char) : Prop :=
  (∀ c ∈ cs.head?, isBlank c = false) ∧ ∀ c ∈ cs.getLast?, isBlank c = false

instance (cs : List Char) : Decidable (Trimmed cs) :=
  decidable_of_iff ((cs.head?.all (!isBlank ·)) = true ∧ (cs.getLast?.all (!isBlank ·)) = true)
    (by simp [Trimmed, Option.all_eq_true])

@[simp] theorem trim_nil : trim [] = [] := rfl

theorem trimStart_eq_self {cs : List Char} (h : ∀ c ∈ cs.head?, isBlank c = false) :
    trimStart cs = cs := by
  cases cs with
  | nil => rfl
  | cons c cs => simp [trimStart, h c (by simp)]

theorem trimEnd_eq_self {cs : List Char} (h : ∀ c ∈ cs.getLast?, isBlank c = false) :
    trimEnd cs = cs := by
  have h' : trimStart cs.reverse = cs.reverse :=
    trimStart_eq_self fun c hc => h c (by simpa using hc)
  simp only [trimStart] at h'
  simp [trimEnd, h']

theorem trim_eq_self {cs : List Char} (h : Trimmed cs) : trim cs = cs := by
  rw [trim, trimStart_eq_self h.1, trimEnd_eq_self h.2]

theorem trim_of_forall_not {cs : List Char} (h : ∀ c ∈ cs, isBlank c = false) : trim cs = cs :=
  trim_eq_self ⟨fun c hc => h c (List.mem_of_mem_head? hc), fun c hc => h c (List.mem_of_getLast? hc)⟩

theorem trim_of_forall {cs : List Char} (h : ∀ c ∈ cs, isBlank c = true) : trim cs = [] := by
  have hstart : trimStart (cs ++ []) = [] := List.dropWhile_append_of_pos h
  rw [List.append_nil] at hstart
  rw [trim, hstart]
  rfl

theorem trimEnd_append {cs after : List Char} (hafter : ∀ c ∈ after, isBlank c = true) :
    trimEnd (cs ++ after) = trimEnd cs := by
  have hreverse : ∀ c ∈ after.reverse, isBlank c = true := fun c hc => hafter c (List.mem_reverse.mp hc)
  rw [trimEnd, List.reverse_append, List.dropWhile_append_of_pos hreverse, trimEnd]

theorem mem_trimStart_of_mem {c : Char} {cs : List Char} (hc : isBlank c = false) (h : c ∈ cs) :
    c ∈ trimStart cs := by
  rw [← List.takeWhile_append_dropWhile (p := isBlank) (l := cs), List.mem_append] at h
  exact h.resolve_left fun hmem => by
    simp [List.all_eq_true.mp List.all_takeWhile c hmem] at hc

theorem mem_trim_of_mem {c : Char} {cs : List Char} (hc : isBlank c = false) (h : c ∈ cs) :
    c ∈ trim cs := by
  have hreverse := mem_trimStart_of_mem hc (List.mem_reverse.mpr (mem_trimStart_of_mem hc h))
  rw [trim, trimEnd, List.mem_reverse]
  exact hreverse

/-- **Blanks around a text do not count.** -/
theorem trim_append {before cs after : List Char} (hbefore : ∀ c ∈ before, isBlank c = true)
    (hafter : ∀ c ∈ after, isBlank c = true) (h : Trimmed cs) : trim (before ++ cs ++ after) = cs := by
  cases cs with
  | nil =>
    rw [List.append_nil]
    exact trim_of_forall fun c hc => (List.mem_append.mp hc).elim (hbefore c) (hafter c)
  | cons c cs =>
    have hstart : trimStart (before ++ c :: cs ++ after) = c :: cs ++ after := by
      rw [trimStart, List.append_assoc, List.dropWhile_append_of_pos hbefore]
      exact trimStart_eq_self fun d hd => h.1 d (by simpa using hd)
    rw [trim, hstart, trimEnd_append hafter, trimEnd_eq_self h.2]

/-! ## Layout -/

@[simp] theorem skipLayout_nil : skipLayout [] = [] := rfl

theorem skipLayout_cons_of_not {c : Char} {cs : List Char} (h : isLayout c = false) :
    skipLayout (c :: cs) = c :: cs := by simp [skipLayout, h]

theorem skipLayout_append_cons {c : Char} (hc : isLayout c = false) (cs r : List Char) :
    skipLayout (cs ++ c :: r) = skipLayout cs ++ c :: r := by
  induction cs with
  | nil => exact skipLayout_cons_of_not hc
  | cons d cs ih =>
    simp only [skipLayout, List.cons_append, List.dropWhile_cons] at ih ⊢
    split
    · exact ih
    · rfl

theorem skipLayout_suffix (cs : List Char) : skipLayout cs <:+ cs := List.dropWhile_suffix _

theorem head?_skipLayout {c : Char} {cs : List Char} (h : (skipLayout cs).head? = some c) :
    isLayout c = false := by
  have hd := List.head?_dropWhile_not isLayout cs
  rw [show cs.dropWhile isLayout = skipLayout cs from rfl, h] at hd
  simpa using hd

theorem skipLayout_skipLayout (cs : List Char) : skipLayout (skipLayout cs) = skipLayout cs := by
  cases h : skipLayout cs with
  | nil => rfl
  | cons c r =>
    have hc : (skipLayout cs).head? = some c := by simp [h]
    exact skipLayout_cons_of_not (head?_skipLayout hc)

end ResourceQuery.Text
