import ResourceQuery.Http.Request
import ResourceQuery.Operator
import ResourceQuery.QueryParams
import ResourceQuery.Scalar
import ResourceQuery.Target

/-! # Calls

The arguments of a function. A call by POST takes them from its body: an array by position, any other
value by name, and a text as one argument. Any other call takes them from the query string: a parameter
that is not reserved is an argument if its first value does not look like a filter, and what does look
like one is left to the filters (`filterParams`). -/

namespace ResourceQuery

/-- How a function is called. -/
inductive CallMethod where
  | get
  | post
deriving DecidableEq, Repr

/-- Whether arguments are matched by name or by position. -/
inductive ArgumentStyle where
  | named
  | positional
deriving DecidableEq, Repr

/-- What arguments are read from. -/
inductive ArgumentSource where
  | json
  | text
deriving DecidableEq, Repr

namespace CallMethod

/-- The method as it is written. -/
def word : CallMethod → String
  | get => "GET"
  | post => "POST"

end CallMethod

namespace ArgumentStyle

/-- The style as it is written. -/
def word : ArgumentStyle → String
  | named => "named"
  | positional => "positional"

end ArgumentStyle

namespace ArgumentSource

/-- The source as it is written. -/
def word : ArgumentSource → String
  | json => "json"
  | text => "text"

end ArgumentSource

/-- **How a function is called, and with what.** -/
structure Call where
  args : Option Json
  method : Option CallMethod
  style : Option ArgumentStyle
  source : Option ArgumentSource
deriving Inhabited

namespace Call

/-- No call. -/
def none : Call := ⟨Option.none, Option.none, Option.none, Option.none⟩

/-- The argument that stands for a text. -/
def rawKey : String := "_raw"

/-- Whether the arguments are in the query string. -/
def fromQuery (target : Target) (method : Method) : Bool := target.isCall && method != .post

/-- A call whose arguments are in its body. -/
def ofPayload : Payload → Call
  | .empty => { none with method := some .post }
  | .values v =>
    ⟨some v, some .post, some (if v.isArray then .positional else .named), some .json⟩
  | .raw text => ⟨some (.obj [(rawKey, .str text)]), some .post, Option.none, some .text⟩

/-- The argument that a parameter is. -/
def argument? (e : String × List String) : Option (String × Json) :=
  match e.2 with
  | [] => Option.none
  | value :: _ =>
    if isReserved e.1 || looksLikeFilter value then Option.none
    else some (e.1, Scalar.coerce value)

/-- The arguments in a query string. -/
def arguments (params : QueryParams) : List (String × Json) := params.entries.filterMap argument?

/-- A call whose arguments are in the query string. -/
def ofParams (params : QueryParams) : Call :=
  let args := match arguments params with
    | [] => Option.none
    | a :: as => some (.obj (a :: as))
  ⟨args, some .get, some .named, some .json⟩

/-- **The call that a request makes.** -/
def ofRequest (target : Target) (method : Method) (params : QueryParams) (payload : Payload) : Call :=
  if !target.isCall then none
  else if method = .post then ofPayload payload
  else ofParams params

/-- **What a call leaves to the filters**: reserved keys, and the values that look like filters. -/
def filterParams (params : QueryParams) : QueryParams :=
  params.filter fun key value => isReserved key || looksLikeFilter value

end Call

end ResourceQuery
