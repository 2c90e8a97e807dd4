import ResourceQuery.Filter.Value

/-! # Words and operands of filter values

A filter value is cut twice: `not.` is taken from its beginning, and the rest is cut at its first point into
the operator's word and the text of its operand. So a value is read if and only if its word names an
operator (`parse_eq_ok`), and otherwise it is refused with that word (`parse_eq_error`). -/

namespace ResourceQuery.FilterValue

/-- A value without a leading `not.`. -/
def body (cs : List Char) : List Char := (Text.dropLead? notMark cs).getD cs

/-- Whether a value starts with `not.`. -/
def isNegated (cs : List Char) : Bool := (Text.dropLead? notMark cs).isSome

/-- **The operator's word** of a value. -/
def word (value : String) : List Char := (split (body value.toList)).1

/-- **The text of the operand** of a value, points included. -/
def rawText (value : String) : String := String.ofList (split (body value.toList)).2

theorem parse_eq_read (value : String) :
    parse value = read (isNegated value.toList) (body value.toList) := by
  unfold parse ofChars isNegated body
  cases Text.dropLead? notMark value.toList <;> rfl

/-- **A value is read if and only if its word names an operator**; the operand is made of its text alone. -/
theorem parse_eq_ok {value : String} {ops : OperatorMap} :
    parse value = .ok ops ↔ ∃ token, OperatorToken.ofChars? (word value) = some token ∧
      ops = if isNegated value.toList then negated token (rawText value)
        else plain token (rawText value) := by
  rw [parse_eq_read, read]
  unfold word rawText
  cases OperatorToken.ofChars? (split (body value.toList)).1 with
  | none => exact ⟨nofun, nofun⟩
  | some token =>
    dsimp only
    rw [Except.ok.injEq]
    constructor
    · rintro rfl
      exact ⟨token, rfl, rfl⟩
    · rintro ⟨_, htoken, rfl⟩
      rw [Option.some.inj htoken]

/-- **A value is refused with its word**, if that names no operator. -/
theorem parse_eq_error {value : String} {e : FilterError} :
    parse value = .error e ↔ OperatorToken.ofChars? (word value) = none ∧
      e = .unknownOperator (String.ofList (word value)) := by
  rw [parse_eq_read, read]
  unfold word
  cases OperatorToken.ofChars? (split (body value.toList)).1 with
  | none =>
    dsimp only
    rw [Except.error.injEq, eq_comm, and_iff_right rfl]
  | some token => exact ⟨nofun, nofun⟩

end ResourceQuery.FilterValue
