import ResourceQuery.Json.Printer
import ResourceQuery.Statement.Json
import ResourceQuery.Translator

/-! # The service

Every HTTP request is answered with the statement it translates to, as JSON, or with what is wrong with
it. Nothing is executed. Two methods differ: `OPTIONS` is answered at once, since any page may ask, and
an answer to `HEAD` or `CONNECT` has no body.

Header values that hold more than visible ASCII, spaces and tabs are passed over. -/

namespace ResourceQuery

/-- **An answer.** -/
structure Response where
  status : Nat
  contentType : Option String
  body : String
deriving DecidableEq, Repr

/-- **A service**: its translator, and how long a body may be, in octets. -/
structure Service where
  translator : Translator := {}
  bodyLimit : Nat := 1048576

namespace Service

/-- Whether a header value is read. -/
def isReadable (value : String) : Bool :=
  value.toList.all fun c => c == '\t' || (0x20 ≤ c.toNat && c.toNat < 0x7F)

/-- A scheme of the web in small letters, and any other as it is. -/
def normalScheme (scheme : List Char) : List Char :=
  let small := scheme.map Char.toLower
  if small = "http".toList ∨ small = "https".toList then small else scheme

/-- A target as it is passed on, without its fragment. One with a scheme has a path. -/
def normalTarget (cs : List Char) : List Char :=
  let cs := cs.takeWhile (· != '#')
  match Text.splitOnce ':' cs with
  | some (scheme, '/' :: '/' :: rest) =>
    if scheme.all Url.isSchemeChar then
      let host := rest.takeWhile fun c => c != '/' && c != '?'
      let rest := rest.drop host.length
      normalScheme scheme ++ "://".toList ++ host ++
        (if rest.head? = some '/' then rest else '/' :: rest)
    else cs
  | _ => cs

/-- The request that the translator is given. -/
def request (s : Service) (method target : String) (headers : List (String × String))
    (body : List UInt8) : Request where
  method := Method.parse method
  target := String.ofList (normalTarget target.toList)
  headers := headers.filter fun h => isReadable h.2
  body := body
  bodyLimit := some s.bodyLimit

/-- The body of an answer to a request that is refused. -/
def errorJson (e : TranslateError) : Json := .obj [("error", .str e.message)]

/-- An answer with a JSON body. -/
def jsonResponse (status : Nat) (body : Json) : Response := ⟨status, some "application/json", body.text⟩

/-- The answer to a translated request. -/
def response : Except TranslateError Statement → Response
  | .ok s => jsonResponse 200 s.json
  | .error e => jsonResponse 400 (errorJson e)

/-- **The answer to an HTTP request.** -/
def respond (s : Service) (method target : String) (headers : List (String × String))
    (body : List UInt8) : Response :=
  if method = "OPTIONS" then ⟨200, none, ""⟩
  else
    let answer := response (s.translator.translate (s.request method target headers body))
    if method = "HEAD" ∨ method = "CONNECT" then { answer with body := "" } else answer

end Service

end ResourceQuery
