import ResourceQuery.Call
import ResourceQuery.Filter.Collect
import ResourceQuery.Meta
import ResourceQuery.Select.Basic
import ResourceQuery.Upsert
import ResourceQuery.Window

/-! # Statements

What a request translates to: a query, a change or a call, with its target, its select list and its
conditions. The conditions of an embed stand in the select list, at the embed itself.

* `attach`: conditions are put at every embed of their path, and nowhere else.
* `strip_attach`: apart from that the select list stays as it was. -/

namespace ResourceQuery

/-- **Kinds of statements.** -/
inductive StatementKind where
  | query | insert | update | delete | upsert | call
deriving DecidableEq, Repr

namespace StatementKind

/-- The kind as it is written. -/
def word : StatementKind → String
  | query => "query"
  | insert => "insert"
  | update => "update"
  | delete => "delete"
  | upsert => "upsert"
  | call => "rpc"

/-- Kinds that take their rows from the body. -/
def isMutation : StatementKind → Bool
  | insert | update | upsert => true
  | _ => false

/-- **The kind of a request.** A function is called whatever the method; a POST that says anything about
conflicting rows is an upsert. -/
def ofRequest (target : Target) (method : Method) (headers : RequestHeaders) : StatementKind :=
  if target.isCall then call
  else match method with
    | .post => if headers.prefers "resolution" then upsert else insert
    | .patch => update
    | .delete => delete
    | _ => query

end StatementKind

/-- **The conditions at an embed.** -/
structure EmbedConditions where
  filter : Option Filter
  window : Window
deriving Inhabited

/-- **A statement.** -/
structure Statement where
  kind : StatementKind
  target : Target
  schema : Option String
  join : Option Select.JoinMap
  select : Option (List (Select.Item EmbedConditions))
  filter : Option Filter
  values : Option Json
  window : Window
  upsert : Option Upsert
  call : Call
  info : Option Meta

namespace Statement

/-- The conditions at the embeds of a path. -/
def conditionsAt (filters : Filters) (windows : Windows) (path : List String) : EmbedConditions where
  filter := Entries.get? path filters.embedded
  window := (Entries.get? path windows.embedded).getD .all

mutual
/-- An entry below a path, with the conditions of its embeds. -/
def attachItem (at_ : List String → EmbedConditions) (path : List String) :
    Select.Item Unit → Select.Item EmbedConditions
  | .star => .star
  | .column name => .column name
  | .field label f => .field label f
  | .embed label items _ spread join =>
    .embed label (attach at_ (path ++ [label]) items) (at_ (path ++ [label])) spread join

/-- **The entries below a path, with the conditions of their embeds.** -/
def attach (at_ : List String → EmbedConditions) (path : List String) :
    List (Select.Item Unit) → List (Select.Item EmbedConditions)
  | [] => []
  | i :: is => attachItem at_ path i :: attach at_ path is
end

mutual
/-- An entry without the conditions of its embeds. -/
def stripItem : Select.Item EmbedConditions → Select.Item Unit
  | .star => .star
  | .column name => .column name
  | .field label f => .field label f
  | .embed label items _ spread join => .embed label (strip items) () spread join

/-- Entries without the conditions of their embeds. -/
def strip : List (Select.Item EmbedConditions) → List (Select.Item Unit)
  | [] => []
  | i :: is => stripItem i :: strip is
end

mutual
theorem stripItem_attachItem (at_ : List String → EmbedConditions) (path : List String) :
    ∀ i, stripItem (attachItem at_ path i) = i
  | .star => by simp [attachItem, stripItem]
  | .column _ => by simp [attachItem, stripItem]
  | .field _ _ => by simp [attachItem, stripItem]
  | .embed label items _ spread join => by
    simp [attachItem, stripItem, strip_attach at_ (path ++ [label]) items]

/-- **Apart from its conditions the list stays as it was.** -/
theorem strip_attach (at_ : List String → EmbedConditions) (path : List String) :
    ∀ is, strip (attach at_ path is) = is
  | [] => by simp [attach, strip]
  | i :: is => by
    simp [attach, strip, stripItem_attachItem at_ path i, strip_attach at_ path is]
end

/-- A filter that has conditions. -/
def filter? : Filter → Option Filter
  | [] => none
  | c :: f => some (c :: f)

/-- Joins, if there are any. -/
def join? : Select.JoinMap → Option Select.JoinMap
  | [] => none
  | e :: es => some (e :: es)

/-- Rows for a kind that takes some, if the body carries a value. -/
def values? (kind : StatementKind) : Payload → Option Json
  | .values v => if kind.isMutation then some v else none
  | _ => none

/-- The select list with its conditions, if there is one. -/
def select? (filters : Filters) (windows : Windows) :
    List (Select.Item Unit) → Option (List (Select.Item EmbedConditions))
  | [] => none
  | i :: is => some (attach (conditionsAt filters windows) [] (i :: is))

/-- What is said about the answer, if anything is. -/
def info? (m : Meta) : Option Meta := if m.isEmpty then none else some m

end Statement

end ResourceQuery
