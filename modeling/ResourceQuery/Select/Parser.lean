import ResourceQuery.Select.Basic
import ResourceQuery.Text.Blank
import ResourceQuery.Text.Quoted
import ResourceQuery.Text.Reader
import ResourceQuery.Text.Utf8
import ResourceQuery.Text.Word

/-! # Select lists, read

The grammar, with layout allowed before every token:

    query     = [ node ("," node)* ]
    node      = "*" | "..." ident modifiers body | [ ident ":" ] field
    field     = count | ident modifiers body | ident path tail
    count     = "count" [ "()" ] [ cast ]       before an end, a comma, ")", "()" or "::"
    modifiers = [ "!" ident [ "!" ("inner" | "left") ] ]
    body      = "(" query ")"
    path      = (("->" | "->>") ident)*
    tail      = [ cast ] [ aggregate [ cast ] ]
    cast      = "::" ident
    aggregate = "." ("count" | "sum" | "avg" | "min" | "max") "()"
    ident     = a word | a text in double quotes

No choice is taken back: once a piece has begun, a missing part is an error at the place where it was
expected. An error says what was wrong and keeps the text from there on; its position, counted in
octets, is what is missing from the whole.

Nesting is counted down by the reader of an embed's body (`bodyAt`). -/

namespace ResourceQuery.Select

open Text (Reader skipLayout spanWord)

/-! ## Errors -/

/-- What is missing. -/
inductive Expected where
  | identifier
  | openParen
  | closeParen
deriving DecidableEq, Repr

namespace Expected

/-- How the missing thing is called. -/
def describe : Expected → String
  | identifier => "identifier"
  | openParen => "("
  | closeParen => ")"

end Expected

/-- What is wrong. -/
inductive Cause where
  | unexpected
  | unterminatedQuote
  | expected (what : Expected)
  | tooDeep
deriving DecidableEq, Repr

/-- What is wrong, and the text from there on. -/
structure Fault where
  cause : Cause
  rest : List Char
deriving DecidableEq, Repr

/-- **Why a select list is refused**, and where. -/
inductive SelectError where
  | unexpectedToken (position : Nat) (remaining : String)
  | unterminatedQuote (position : Nat)
  | expectedToken (what : Expected) (position : Nat)
  | tooDeep (position : Nat)
deriving DecidableEq, Repr

/-- How deep embeds may stand inside one another. -/
def maxNesting : Nat := 64

namespace SelectError

/-- Where the error is, in octets. -/
def position : SelectError → Nat
  | unexpectedToken p _ => p
  | unterminatedQuote p => p
  | expectedToken _ p => p
  | tooDeep p => p

/-- The wording of an error. -/
def message : SelectError → String
  | unexpectedToken p rest =>
    "Unexpected input at position " ++ toString p ++ ": " ++ Text.quoted rest
  | unterminatedQuote p => "Missing closing quote for identifier at position " ++ toString p
  | expectedToken what p => "Expected " ++ what.describe ++ " at position " ++ toString p
  | tooDeep p =>
    "Embeds nested deeper than " ++ toString maxNesting ++ " levels at position " ++ toString p

/-- A fault in a whole text. -/
def ofFault (whole : List Char) (f : Fault) : SelectError :=
  let p := Text.byteLength whole - Text.byteLength f.rest
  match f.cause with
  | .unexpected => unexpectedToken p (String.ofList f.rest)
  | .unterminatedQuote => unterminatedQuote p
  | .expected what => expectedToken what p
  | .tooDeep => tooDeep p

end SelectError

/-! ## Tokens -/

/-- The text in quotes after an opening one, and what follows; none if the quote stays open. -/
def quotedText? : List Char → Option (List Char × List Char)
  | [] => none
  | c :: cs => if c = '"' then some ([], cs) else (quotedText? cs).map (Prod.map (c :: ·) id)

/-- **An identifier**, which must be there. -/
def identifier : Reader Fault String := fun cs =>
  match skipLayout cs with
  | '"' :: r =>
    match quotedText? r with
    | some (name, rest) => .ok (String.ofList name, rest)
    | none => .error ⟨.unterminatedQuote, '"' :: r⟩
  | r =>
    match spanWord r with
    | ([], _) => .error ⟨.expected .identifier, r⟩
    | (w, rest) => .ok (String.ofList w, rest)

/-- The text after an opening parenthesis, which must be there. -/
def openParen (cs : List Char) : Except Fault (List Char) :=
  match skipLayout cs with
  | '(' :: r => .ok r
  | r => .error ⟨.expected .openParen, r⟩

/-- The text after a closing parenthesis, which must be there. -/
def closeParen (cs : List Char) : Except Fault (List Char) :=
  match skipLayout cs with
  | ')' :: r => .ok r
  | r => .error ⟨.expected .closeParen, r⟩

/-- After a comma. -/
def comma? (cs : List Char) : Option (List Char) :=
  match skipLayout cs with
  | ',' :: r => some r
  | _ => none

/-- After a colon that no second one follows. -/
def colon? (cs : List Char) : Option (List Char) :=
  match skipLayout cs with
  | ':' :: ':' :: _ => none
  | ':' :: r => some r
  | _ => none

/-- After a double colon. -/
def doubleColon? (cs : List Char) : Option (List Char) :=
  match skipLayout cs with
  | ':' :: ':' :: r => some r
  | _ => none

/-- After an exclamation mark. -/
def bang? (cs : List Char) : Option (List Char) :=
  match skipLayout cs with
  | '!' :: r => some r
  | _ => none

/-- After an arrow, with one head or two. -/
def arrow? (cs : List Char) : Option (List Char) :=
  match skipLayout cs with
  | '-' :: '>' :: '>' :: r => some r
  | '-' :: '>' :: r => some r
  | _ => none

/-- A call of an aggregate; only layout may stand before the point, and nothing inside. -/
def aggregate? (cs : List Char) : Option (Aggregate × List Char) :=
  match skipLayout cs with
  | '.' :: r =>
    let w := spanWord r
    match Aggregate.ofWord? (String.ofList w.1), w.2 with
    | some a, '(' :: ')' :: rest => some (a, rest)
    | _, _ => none
  | _ => none

/-! ## Pieces -/

/-- A cast, if there is one. -/
def cast? : Reader Fault (Option String) := fun cs =>
  match doubleColon? cs with
  | none => .ok (none, cs)
  | some r => (identifier r).map fun (t, rest) => (some t, rest)

/-- The keys of a path into a document, if there is one. -/
def path? : Reader Fault (Option (List String)) := fun cs =>
  match arrow? cs with
  | none => .ok (none, cs)
  | some r => (Text.separated identifier arrow? r).map fun (keys, rest) => (some keys, rest)

/-- **What follows a column**: a cast before the aggregate, the aggregate, and the cast of the result.
Without an aggregate the only cast is that of the result. -/
def tail : Reader Fault (Option String × Option Aggregate × Option String) := fun cs => do
  let (first, r) ← cast? cs
  match aggregate? r with
  | some (a, r) =>
    let (last, r) ← cast? r
    return ((first, some a, last), r)
  | none => return ((none, none, first), r)

/-- **How an embed is joined**: a hint, a kind, or a hint and a kind. -/
def modifiers : Reader Fault Join := fun cs =>
  match bang? cs with
  | none => .ok (.plain, cs)
  | some r => do
    let (word, r) ← identifier r
    match JoinKind.ofWord? word with
    | some kind => return (⟨none, kind, none⟩, r)
    | none =>
      match bang? r with
      | none => return (⟨none, .left, some word⟩, r)
      | some r =>
        let w := spanWord (skipLayout r)
        match JoinKind.ofWord? (String.ofList w.1) with
        | some kind => return (⟨none, kind, some word⟩, w.2)
        | none => .error ⟨.unexpected, skipLayout r⟩

/-- The path as a statement carries it. -/
def pathText (keys : List String) : String :=
  String.ofList ('$' :: '.' :: Text.joinWith ['.'] (keys.map String.toList))

/-- **The entry of a column** with what was said about it. The last key of a path is its label unless
another one is given. -/
def columnNode (ident : String) (label : Option String) (keys : Option (List String))
    (casts : Option String × Option Aggregate × Option String) : Node :=
  let label := label.or (keys.bind List.getLast?)
  let path := keys.map pathText
  let (preCast, aggregate, cast) := casts
  if label = none ∧ path = none ∧ preCast = none ∧ aggregate = none ∧ cast = none then .column ident
  else
    let key := label.getD ident
    let named := ident ≠ key ∨ aggregate.isSome ∨ path.isSome
    .field key ⟨if named then some ident else none, path, preCast, aggregate, cast⟩

/-- Whether what follows the word `count` makes it the count of all rows. -/
def countFollows : List Char → Bool
  | [] => true
  | ',' :: _ => true
  | ')' :: _ => true
  | '(' :: ')' :: _ => true
  | ':' :: ':' :: _ => true
  | _ => false

/-- The count of all rows, after its word. -/
def countNode (label : Option String) : Reader Fault Node := fun cs => do
  let r := match cs with
    | '(' :: ')' :: r => r
    | r => r
  let (cast, r) ← cast? r
  return (.field (label.getD "count") ⟨none, none, none, some .count, cast⟩, r)

/-- A column, after its name. -/
def columnField (ident : String) (label : Option String) : Reader Fault Node := fun cs => do
  let (keys, r) ← path? cs
  let (casts, r) ← tail r
  return (columnNode ident label keys casts, r)

/-- An embed, after the name of its resource. -/
def embedField (body : Reader Fault (List Node)) (ident : String) (label : Option String) :
    Reader Fault Node := fun cs => do
  let (join, r) ← modifiers cs
  let (nodes, r) ← body r
  match label with
  | some label => return (.embed label { join with resource := some ident } false nodes, r)
  | none => return (.embed ident join false nodes, r)

/-- What follows an identifier that is no label. -/
def field (body : Reader Fault (List Node)) (ident : String) (label : Option String) :
    Reader Fault Node := fun cs =>
  let r := skipLayout cs
  if ident = "count" ∧ countFollows r then countNode label r
  else match r with
    | '!' :: _ => embedField body ident label r
    | '(' :: _ => embedField body ident label r
    | _ => columnField ident label r

/-- A spread embed, after its three points. -/
def spreadNode (body : Reader Fault (List Node)) : Reader Fault Node := fun cs => do
  let (label, r) ← identifier cs
  let (join, r) ← modifiers r
  let (nodes, r) ← body r
  return (.embed label join true nodes, r)

/-- An entry that starts with an identifier. -/
def namedNode (body : Reader Fault (List Node)) : Reader Fault Node := fun cs => do
  let (ident, r) ← identifier cs
  match colon? r with
  | some r =>
    let (target, r) ← identifier r
    field body target (some ident) r
  | none => field body ident none r

/-- **An entry**, whose embed's body is read as given. -/
def node (body : Reader Fault (List Node)) : Reader Fault Node := fun cs =>
  match skipLayout cs with
  | '*' :: r => .ok (.star, r)
  | '.' :: '.' :: '.' :: r => spreadNode body r
  | r => namedNode body r

/-- **A list of entries**, which may be empty before a closing parenthesis or the end. -/
def query (body : Reader Fault (List Node)) : Reader Fault (List Node) := fun cs =>
  match skipLayout cs with
  | [] => .ok ([], [])
  | ')' :: r => .ok ([], ')' :: r)
  | r => Text.separated (node body) comma? r

/-- The list of an embed in its parentheses, at most this many levels deep. An empty pair selects all
columns. -/
def bodyAt : Nat → Reader Fault (List Node)
  | 0 => fun cs => .error ⟨.tooDeep, skipLayout cs⟩
  | n + 1 => fun cs => do
    let r ← openParen cs
    match skipLayout r with
    | ')' :: r => return ([.star], r)
    | _ =>
      let (nodes, r) ← query (bodyAt n) r
      let r ← closeParen r
      return (nodes, r)

/-! ## Whole texts -/

/-- The nodes of a text, used to its end but for blanks. -/
def readAll (cs : List Char) : Except Fault (List Node) := do
  let (nodes, r) ← query (bodyAt maxNesting) cs
  match Text.trimStart r with
  | [] => return nodes
  | r => .error ⟨.unexpected, r⟩

/-- The nodes that a text says. -/
def nodesOf (text : String) : Except SelectError (List Node) :=
  match readAll text.toList with
  | .ok nodes => .ok nodes
  | .error f => .error (.ofFault text.toList f)

/-- **The select list that a text says.** No text, like an empty one, says nothing. -/
def parse (text : Option String) : Except SelectError Selection :=
  (nodesOf (text.getD "")).map Selection.ofNodes

end ResourceQuery.Select
