import ResourceQuery.Http.Method
import ResourceQuery.Json.Parser
import ResourceQuery.Text.Split
import ResourceQuery.Text.Utf8

/-! # Payloads

What the body of a request carries: nothing, a JSON value, or text. The content type decides between the
last two; a JSON body that cannot be read is refused with its first hundred characters. -/

namespace ResourceQuery

/-- **Why a body is refused.** -/
inductive PayloadError where
  | invalidJson (snippet : String)
  | tooLong
deriving DecidableEq, Repr

/-- The wording of an error. -/
def PayloadError.message : PayloadError → String
  | invalidJson snippet => "Invalid JSON body: " ++ snippet
  | tooLong => "Failed to read request body: length limit exceeded"

/-- **What a body carries.** -/
inductive Payload where
  | empty
  | values (v : Json)
  | raw (text : String)
deriving Inhabited

namespace Payload

/-- How many characters of a refused body are shown. -/
def snippetLength : Nat := 100

/-- The content type of JSON, which may stand anywhere in the header. -/
def jsonType : String := "application/json"

/-- The payload of a text. -/
def ofChars (text : List Char) (contentType : String) : Except PayloadError Payload :=
  if text = [] then .ok empty
  else if Text.occurs jsonType.toList contentType.toList then
    match Json.ofChars? text with
    | some v => .ok (values v)
    | none => .error (.invalidJson (String.ofList (text.take snippetLength)))
  else .ok (raw (String.ofList text))

/-- **The payload of a body**, whose octets are read as UTF-8. -/
def classify (body : List UInt8) (contentType : String) : Except PayloadError Payload :=
  ofChars (Text.Utf8.decode body) contentType

end Payload

end ResourceQuery
