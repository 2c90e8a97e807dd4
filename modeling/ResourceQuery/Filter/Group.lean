import ResourceQuery.Filter.Value
import ResourceQuery.Text.Blank
import ResourceQuery.Text.Reader

/-! # Groups of conditions

The value of an `and` or `or` parameter is a list of expressions between commas, in parentheses or
not. An expression is a group of its own, `[not.](and|or)(...)`, or a condition: text in which
parentheses are balanced, up to the next comma or closing parenthesis outside them. Layout before an
expression and after a group is skipped, blanks around a condition are trimmed, and empty conditions
are dropped.

`Expression` is what the text says; `Expression.filter` reads its conditions, `[not.]column.value`. An
unreadable text is refused as a whole, before any of its conditions is read; of several conditions that
are refused the first one counts.

Nesting is counted down by the reader of what stands in parentheses (`itemsAt`): 64 levels, the outermost
included. -/

namespace ResourceQuery

open Text (Reader skipLayout)

/-- **What a group's text says.** -/
inductive Expression where
  | condition (text : List Char)
  | group (logic : Logic) (negated : Bool) (items : List Expression)
deriving Inhabited

namespace Expression

/-- Why a text is no list of expressions. -/
inductive Fault where
  | malformed
  | tooDeep
deriving DecidableEq, Repr

/-- The condition a text starts with, and the rest; `depth` parentheses are open. A parenthesis that
stays open makes the text unreadable. -/
def conditionText : Nat → List Char → Option (List Char × List Char)
  | 0, [] => some ([], [])
  | _ + 1, [] => none
  | depth, c :: cs =>
    if c = '(' then (conditionText (depth + 1) cs).map (Prod.map (c :: ·) id)
    else if c = ')' then
      match depth with
      | 0 => some ([], c :: cs)
      | depth + 1 => (conditionText depth cs).map (Prod.map (c :: ·) id)
    else if c = ',' ∧ depth = 0 then some ([], c :: cs)
    else (conditionText depth cs).map (Prod.map (c :: ·) id)

/-- The kind of group and the negation that precede an opening parenthesis, and the text from there. -/
def groupStart? (cs : List Char) : Option ((Logic × Bool) × List Char) :=
  let (negated, r) := match Text.dropLead? FilterValue.notMark cs with
    | some r => (true, r)
    | none => (false, cs)
  match r with
  | 'a' :: 'n' :: 'd' :: '(' :: r => some ((.and, negated), '(' :: r)
  | 'o' :: 'r' :: '(' :: r => some ((.or, negated), '(' :: r)
  | _ => none

/-- An expression, whose group's items are read as given. -/
def read (items : Reader Fault (List Expression)) : Reader Fault Expression := fun cs =>
  match groupStart? (skipLayout cs) with
  | some ((logic, negated), r) =>
    match items r with
    | .error e => .error e
    | .ok (es, r) => .ok (.group logic negated es, skipLayout r)
  | none =>
    match conditionText 0 (skipLayout cs) with
    | none => .error .malformed
    | some (text, r) => .ok (.condition (Text.trim text), r)

/-- The text after a comma, if it starts with one. -/
def comma? : List Char → Option (List Char)
  | ',' :: cs => some cs
  | _ => none

/-- Expressions between commas, whose groups' items are read as given. -/
def readList (items : Reader Fault (List Expression)) : Reader Fault (List Expression) :=
  Text.separated (read items) comma?

/-- Expressions in parentheses, at most this many levels deep. -/
def itemsAt : Nat → Reader Fault (List Expression)
  | 0 => fun _ => .error .tooDeep
  | n + 1 => fun cs =>
    match cs with
    | '(' :: r =>
      match readList (itemsAt n) r with
      | .error e => .error e
      | .ok (es, ')' :: r) => .ok (es, r)
      | .ok _ => .error .malformed
    | _ => .error .malformed

/-- The expressions of a whole text, in parentheses or not. -/
def readAll (cs : List Char) : Except Fault (List Expression) :=
  let result := match cs with
    | '(' :: _ => itemsAt Filter.maxNesting cs
    | _ => readList (itemsAt (Filter.maxNesting - 1)) cs
  match result with
  | .error e => .error e
  | .ok (es, []) => .ok es
  | .ok _ => .error .malformed

/-- Whether an expression is an empty condition. -/
def isEmpty : Expression → Bool
  | condition [] => true
  | _ => false

/-- **A condition** `[not.]column.value` as a filter on its column. -/
def conditionFilter (text : List Char) : Except FilterError Filter :=
  let (negated, rest) := match Text.dropLead? FilterValue.notMark text with
    | some rest => (true, rest)
    | none => (false, text)
  match Text.splitOnce '.' rest with
  | none => .error (.invalidLogic (String.ofList text))
  | some (column, value) =>
    match FilterValue.ofChars (if negated then FilterValue.notMark ++ value else value) with
    | .error e => .error e
    | .ok ops => .ok (.column (String.ofList column) ops)

mutual
/-- **The filter that an expression is.** -/
def filter : Expression → Except FilterError Filter
  | condition text => conditionFilter text
  | group logic negated items =>
    match filters items with
    | .error e => .error e
    | .ok gs => .ok (if negated then .negation (.group logic gs) else .group logic gs)

/-- The filters that expressions are, empty conditions left out. -/
def filters : List Expression → Except FilterError (List Filter)
  | [] => .ok []
  | e :: es =>
    if e.isEmpty then filters es
    else match filter e with
      | .error err => .error err
      | .ok g =>
        match filters es with
        | .error err => .error err
        | .ok gs => .ok (g :: gs)
end

end Expression

/-- **The filters that a group's text lists.** -/
def FilterGroup.parse (text : String) : Except FilterError (List Filter) :=
  match Expression.readAll text.toList with
  | .error .tooDeep => .error .tooDeep
  | .error .malformed => .error (.invalidLogic text)
  | .ok es => Expression.filters es

end ResourceQuery
