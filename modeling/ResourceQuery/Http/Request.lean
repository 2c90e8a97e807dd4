import ResourceQuery.Http.Prefer
import ResourceQuery.Payload

/-! # Requests

A method, a target, headers and a body. A header may come several times; its values count as one, with
commas between them. A body can be read once, and not at all if it is longer than the request allows.

`RequestHeaders` is what the headers say about the translation: the schema, the preferences and the
accepted types. -/

namespace ResourceQuery

/-- **A request.** -/
structure Request where
  method : Method
  target : String
  headers : List (String × String)
  body : List UInt8
  bodyLimit : Option Nat

namespace Request

/-- Whether two header names are the same, whatever the case of their ASCII letters. -/
def sameName (a b : String) : Bool := a.toList.map Char.toLower == b.toList.map Char.toLower

/-- The values of a header, in order. -/
def headerValues (name : String) (r : Request) : List String :=
  (r.headers.filter fun h => sameName h.1 name).map Prod.snd

/-- **The value of a header**: all its values with commas between them. -/
def header? (name : String) (r : Request) : Option String :=
  match headerValues name r with
  | [] => none
  | vs => some (String.intercalate ", " vs)

/-- The octets of the body. -/
def readBody (r : Request) : Except PayloadError (List UInt8) :=
  match r.bodyLimit with
  | some limit => if limit < r.body.length then .error .tooLong else .ok r.body
  | none => .ok r.body

/-- What the body carries. A request that only reads has no body. -/
def payload (r : Request) (classify : List UInt8 → String → Except PayloadError Payload) :
    Except PayloadError Payload :=
  if r.method.isRead then .ok .empty
  else do
    let body ← r.readBody
    classify body ((r.header? "content-type").getD "")

/-- The request after its body was read. -/
def withoutBody (r : Request) : Request :=
  if r.method.isRead then r else { r with body := [] }

/-- A JSON value as the body, announced by a further header. -/
def withJson (text : List Char) (r : Request) : Request :=
  { r with
    headers := r.headers ++ [("Content-Type", Payload.jsonType)]
    body := Text.Utf8.encode text }

end Request

/-- **What the headers say.** -/
structure RequestHeaders where
  schema : Option String
  prefer : List Preference
  accept : String
deriving DecidableEq, Repr

namespace RequestHeaders

/-- Whether a preference of this key was given, known or not. -/
def prefers (key : String) (h : RequestHeaders) : Bool := h.prefer.any fun p => p.key == key

/-- The header that names the schema. -/
def schemaHeader (m : Method) : String := if m.isRead then "accept-profile" else "content-profile"

/-- The accepted type if none is named. -/
def defaultAccept : String := "application/json"

/-- **The headers of a request.** -/
def ofRequest (r : Request) (m : Method) : RequestHeaders where
  schema := r.header? (schemaHeader m)
  prefer := ((r.header? "prefer").map Preference.parseAll).getD []
  accept := (r.header? "accept").getD defaultAccept

end RequestHeaders

end ResourceQuery
