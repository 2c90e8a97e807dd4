import ResourceQuery.Select.Parser
import ResourceQuery.Statement.Basic
import ResourceQuery.Url.Basic

/-! # Translation

A request becomes a statement, or an error that says which part of it could not be read. The parts are
read in a fixed order, so of two faults the first one counts: the URL, the select list, the body, the
filters, and last the windows.

* `Steps`: the reading of each part, which can be replaced.
* `Steps.withRowFilter`: one condition that every filter gets, whatever the request says.
* `Translator.translate`: the statement of a request. -/

namespace ResourceQuery

open Select (SelectError Selection)

/-- **Why a request is refused.** -/
inductive TranslateError where
  | url (target : String) (cause : UrlError)
  | select (cause : SelectError)
  | payload (cause : PayloadError)
  | filter (cause : FilterError)
  | window (cause : WindowError)
deriving DecidableEq, Repr

/-- The wording of an error. -/
def TranslateError.message : TranslateError → String
  | url target cause => "Invalid request URL " ++ Text.quoted target ++ ": " ++ cause.message
  | select cause => "Select parse error: " ++ cause.message
  | payload cause => "Body error: " ++ cause.message
  | filter cause => "Filter error: " ++ cause.message
  | window cause => "Transform error: " ++ cause.message

/-- **How each part of a request is read.** -/
structure Steps where
  target : String → String → Target := Target.parse
  params : Url → QueryParams := Url.params
  headers : Request → Method → RequestHeaders := RequestHeaders.ofRequest
  select : Option String → Except SelectError Selection := Select.parse
  payload : List UInt8 → String → Except PayloadError Payload := Payload.classify
  kind : Target → Method → RequestHeaders → StatementKind := StatementKind.ofRequest
  filters : QueryParams → AliasTree → Except FilterError Filters := Filters.ofParams
  windows : QueryParams → AliasTree → Except WindowError Windows := Windows.ofParams
  info : RequestHeaders → QueryParams → Method → Meta := Meta.ofRequest
  call : Target → Method → QueryParams → Payload → Call := Call.ofRequest
  upsert : QueryParams → RequestHeaders → Upsert := Upsert.ofRequest

namespace Steps

/-- The reading of every part as its own module defines it. -/
def standard : Steps := {}

/-- The filters with one more condition on the rows of the request itself. -/
def addRowFilter (column value : String) (fs : Filters) : Except FilterError Filters := do
  let ops ← FilterValue.parse value
  return { fs with top := fs.top.addColumn column ops }

/-- **The same steps, with one more condition** after the filters are read. -/
def withRowFilter (column value : String) (s : Steps) : Steps :=
  { s with filters := fun params tree => do addRowFilter column value (← s.filters params tree) }

end Steps

/-- **A translator**: the path that its targets lie below, and its steps. -/
structure Translator where
  basePath : String := "/rest/v1"
  steps : Steps := .standard

namespace Translator

/-- The parameters that are filters: of a call, those that are no arguments. -/
def filterParams (target : Target) (method : Method) (params : QueryParams) : QueryParams :=
  if Call.fromQuery target method then Call.filterParams params else params

/-- What becomes of conflicting rows, for the kind of statement that asks. -/
def upsert? (t : Translator) (kind : StatementKind) (params : QueryParams) (headers : RequestHeaders) :
    Option Upsert :=
  if kind = .upsert then some (t.steps.upsert params headers) else none

/-- How a function is called, for the kind of statement that calls one. -/
def call (t : Translator) (kind : StatementKind) (target : Target) (method : Method)
    (params : QueryParams) (payload : Payload) : Call :=
  if kind = .call then t.steps.call target method params payload else .none

/-- **The statement of a request.** -/
def translate (t : Translator) (r : Request) : Except TranslateError Statement := do
  let url ← (Url.parse r.target).mapError (.url r.target)
  let target := t.steps.target url.path t.basePath
  let params := t.steps.params url
  let headers := t.steps.headers r r.method
  let selection ← (t.steps.select (params.first? "select")).mapError .select
  let payload ← (r.payload t.steps.payload).mapError .payload
  let kind := t.steps.kind target r.method headers
  let filters ← (t.steps.filters (filterParams target r.method params) selection.aliases).mapError
    .filter
  let windows ← (t.steps.windows params selection.aliases).mapError .window
  return {
    kind, target
    schema := headers.schema
    join := Statement.join? selection.join
    select := Statement.select? filters windows selection.items
    filter := Statement.filter? filters.top
    values := Statement.values? kind payload
    window := windows.top
    upsert := t.upsert? kind params headers
    call := t.call kind target r.method params payload
    info := Statement.info? (t.steps.info headers params r.method) }

end Translator

end ResourceQuery
