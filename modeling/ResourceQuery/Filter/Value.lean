import ResourceQuery.Filter.Basic
import ResourceQuery.Json.Parser
import ResourceQuery.ListLiteral
import ResourceQuery.Text.Quoted

/-! # Filter values

The value of a filter parameter is `operator.operand`, with `not.` before it for a negation. The
operator's word ends at the first point; what follows is its operand, points included, and may be
missing. The operator decides how the operand is read:

* a text search keeps the text;
* a quantified comparison takes an array if the text starts with a brace, a list otherwise;
* `in` takes a list, and its negation is an operator of its own;
* a comparison of sets takes an object or an array in braces, a range in brackets, or a scalar;
* a comparison of ranges keeps the text;
* any other comparison takes a scalar. -/

namespace ResourceQuery

/-- **Why a filter is refused.** -/
inductive FilterError where
  | unknownOperator (word : String)
  | invalidLogic (text : String)
  | tooDeep
deriving DecidableEq, Repr

namespace Filter

/-- How deep groups may stand inside one another. -/
def maxNesting : Nat := 64

end Filter

namespace FilterError

/-- The wording of an error. -/
def message : FilterError → String
  | unknownOperator word => "Unknown operator: " ++ Text.quoted word
  | invalidLogic text => "Invalid logical expression: " ++ Text.quoted text
  | tooDeep =>
    "Logical expression nested deeper than " ++ toString Filter.maxNesting ++ " levels"

end FilterError

namespace FilterValue

/-- The operand of a comparison of sets. -/
def containment (raw : String) : Json :=
  match raw.toList with
  | '\x7b' :: _ =>
    match Json.parse? raw with
    | some (.obj fields) => .obj fields
    | _ => .arr (ListLiteral.parseArray raw)
  | '[' :: _ => .str raw
  | '(' :: _ => .str raw
  | _ => Scalar.coerce raw

/-- The operand of a quantified comparison. -/
def quantified (raw : String) : Json :=
  match raw.toList with
  | '\x7b' :: _ => .arr (ListLiteral.parseArray raw)
  | _ => .arr (ListLiteral.parseIn raw)

/-- **The operand that a text is**, for an operator's word. -/
def operand (token : OperatorToken) (raw : String) : Operand :=
  match token with
  | .textSearch kind config => .textSearch ⟨raw, kind, config⟩
  | .quantified _ _ => .value (quantified raw)
  | .comparison c =>
    if c = .inList then .value (.arr (ListLiteral.parseIn raw))
    else if c.isContainment then .value (containment raw)
    else if c.isRange then .value (.str raw)
    else .value (Scalar.coerce raw)

/-- An operator's word with its operand, as an operator map. -/
def plain (token : OperatorToken) (raw : String) : OperatorMap :=
  .single token.operator (operand token raw)

/-- The negation of the same. -/
def negated (token : OperatorToken) (raw : String) : OperatorMap :=
  if token = .comparison .inList then .single .notIn (.value (.arr (ListLiteral.parseIn raw)))
  else .negated token.operator (operand token raw)

/-- The word and the operand of a value: what stands before and after its first point. -/
def split (cs : List Char) : List Char × List Char := (Text.splitOnce '.' cs).getD (cs, [])

/-- A value without `not.`, to be read as it stands or negated. -/
def read (negate : Bool) (cs : List Char) : Except FilterError OperatorMap :=
  let p := split cs
  match OperatorToken.ofChars? p.1 with
  | none => .error (.unknownOperator (String.ofList p.1))
  | some token =>
    let raw := String.ofList p.2
    .ok (if negate then negated token raw else plain token raw)

/-- What precedes a negated value. -/
def notMark : List Char := ['n', 'o', 't', '.']

/-- The operators that the characters of a value stand for. -/
def ofChars (cs : List Char) : Except FilterError OperatorMap :=
  match Text.dropLead? notMark cs with
  | some rest => read true rest
  | none => read false cs

/-- **The operators that a value stands for.** -/
def parse (value : String) : Except FilterError OperatorMap := ofChars value.toList

end FilterValue

end ResourceQuery
