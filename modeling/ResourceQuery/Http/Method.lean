/-! # Methods

The methods of HTTP that mean something here; any other one is kept by its name in upper case. -/

namespace ResourceQuery

/-- **A request method.** -/
inductive Method where
  | get | head | post | put | patch | delete | options
  | other (name : String)
deriving DecidableEq, Repr

namespace Method

/-- The method of an upper-case name. -/
def ofUpper (name : String) : Method :=
  if name = "GET" then get
  else if name = "HEAD" then head
  else if name = "POST" then post
  else if name = "PUT" then put
  else if name = "PATCH" then patch
  else if name = "DELETE" then delete
  else if name = "OPTIONS" then options
  else other name

/-- **The method of a name**, in whichever case its ASCII letters are. -/
def parse (name : String) : Method := ofUpper (String.ofList (name.toList.map Char.toUpper))

/-- The name of a method. -/
def name : Method → String
  | get => "GET"
  | head => "HEAD"
  | post => "POST"
  | put => "PUT"
  | patch => "PATCH"
  | delete => "DELETE"
  | options => "OPTIONS"
  | other name => name

/-- Methods that only read, and have no body. -/
def isRead : Method → Bool
  | get | head => true
  | _ => false

/-- Whether the name is none of the seven. -/
def isOther : Method → Bool
  | other _ => true
  | _ => false

end Method

end ResourceQuery
