import ResourceQuery.QueryParams
import ResourceQuery.Url.Authority

/-! # URLs

The target of a request as a URL: its path, and its query if it has one. A scheme, credentials and a
host with a number may stand in front, and a fragment behind; they are checked and dropped. A target without a
scheme is relative to the root of some host of the web.

* `Url.parse`: the URL that a text is.
* `Url.params`: the parameters in its query. -/

namespace ResourceQuery

/-- **A URL**, as far as a request needs it. The query is as it was written. -/
structure Url where
  path : String
  query : Option String
deriving DecidableEq, Repr

namespace Url

/-- What stands before the query and the fragment. -/
def isBeforeQuery (c : Char) : Bool := c != '?' && c != '#'

/-- The query at the start of a text. -/
def queryOf : List Char → Option String
  | '?' :: cs => some (String.ofList (cs.takeWhile (· != '#')))
  | _ => none

/-- A URL from its path on, given how the path is written. -/
def ofPath (write : List Char → List Char) (cs : List Char) : Url :=
  let path := cs.takeWhile isBeforeQuery
  ⟨String.ofList (write path), queryOf (cs.drop path.length)⟩

/-- A URL from its authority on. -/
def ofAuthority (kind : SchemeKind) (cs : List Char) : Except UrlError Url :=
  (afterAuthority kind cs).map (ofPath (normalPath kind))

/-- A URL of a file after its scheme. -/
def ofFile (cs : List Char) : Except UrlError Url :=
  match cs with
  | c :: c' :: r =>
    if SchemeKind.file.isSlash c && SchemeKind.file.isSlash c' then
      (afterFileHost r).map (ofPath (normalPath .file))
    else .ok (ofPath (normalPath .file) cs)
  | _ => .ok (ofPath (normalPath .file) cs)

/-- A URL of another scheme after that. -/
def ofOther (cs : List Char) : Except UrlError Url :=
  match cs with
  | '/' :: '/' :: r => ofAuthority .other r
  | '/' :: _ => .ok (ofPath (normalPath .other) cs)
  | _ => .ok (ofPath (Text.Percent.encode isEscapedInOpaquePath) cs)

/-- A URL without a scheme. -/
def ofRelative (cs : List Char) : Except UrlError Url :=
  match cs with
  | '/' :: '/' :: r => ofAuthority .web r
  | c :: c' :: _ =>
    if SchemeKind.web.isSlash c && SchemeKind.web.isSlash c' then
      ofAuthority .web (cs.dropWhile SchemeKind.web.isSlash)
    else .ok (ofPath (normalPath .web) cs)
  | _ => .ok (ofPath (normalPath .web) cs)

/-- Controls and spaces, which may stand around a URL. -/
def isPadding (c : Char) : Bool := c.toNat ≤ 0x20

/-- The text without the controls and spaces around it, and without tabs and line ends. -/
def clean (cs : List Char) : List Char :=
  (((cs.dropWhile isPadding).reverse.dropWhile isPadding).reverse).filter fun c =>
    c != '\t' && c != '\n' && c != '\r'

/-- The URL that characters are. -/
def ofChars (cs : List Char) : Except UrlError Url :=
  match splitScheme? (clean cs) with
  | none => ofRelative (clean cs)
  | some (.web, rest) => ofAuthority .web (rest.dropWhile SchemeKind.web.isSlash)
  | some (.file, rest) => ofFile rest
  | some (.other, rest) => ofOther rest

/-- **The URL that a text is.** -/
def parse (text : String) : Except UrlError Url := ofChars text.toList

/-- A pair of a query. Without `=` the value is empty. -/
def pair (cs : List Char) : String × String :=
  let (key, value) := (Text.splitOnce '=' cs).getD (cs, [])
  (String.ofList (Text.Percent.decodeForm key), String.ofList (Text.Percent.decodeForm value))

/-- The pairs of a query, between ampersands. -/
def queryPairs (query : String) : List (String × String) :=
  ((Text.splitOn '&' query.toList).filter (· ≠ [])).map pair

/-- **The parameters in a URL.** -/
def params (u : Url) : QueryParams := QueryParams.ofPairs ((u.query.map queryPairs).getD [])

end Url

end ResourceQuery
