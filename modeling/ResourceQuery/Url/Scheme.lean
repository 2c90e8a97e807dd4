import ResourceQuery.Text.Split

/-! # Schemes

What a URL starts with. Only three kinds of schemes are told apart: those of the web, which take a
backslash for a slash and always have a host and a path; that of files, which may lack the host; and all
others. -/

namespace ResourceQuery.Url

/-- **Kinds of schemes.** -/
inductive SchemeKind where
  | web
  | file
  | other
deriving DecidableEq, Repr

/-- The schemes of the web. -/
def webSchemes : List String := ["http", "https", "ws", "wss", "ftp"]

namespace SchemeKind

/-- The kind of a scheme in small letters. -/
def ofScheme (scheme : String) : SchemeKind :=
  if webSchemes.contains scheme then web else if scheme = "file" then file else other

/-- What separates the segments of a path. -/
def isSlash (kind : SchemeKind) (c : Char) : Bool := c == '/' || (kind != other && c == '\\')

/-- What ends a host and all that stands before the path. -/
def endsAuthority (kind : SchemeKind) (c : Char) : Bool := kind.isSlash c || c == '?' || c == '#'

/-- The text with `/` for every separator. -/
def withSlashes (kind : SchemeKind) (cs : List Char) : List Char :=
  cs.map fun c => if kind.isSlash c then '/' else c

end SchemeKind

/-- A character of a scheme after the first. -/
def isSchemeChar (c : Char) : Bool := c.isAlphanum || c == '+' || c == '-' || c == '.'

/-- **The kind of the scheme that a text starts with**, and the text after its colon. -/
def splitScheme? (cs : List Char) : Option (SchemeKind × List Char) :=
  match Text.splitOnce ':' cs with
  | none => none
  | some (scheme, rest) =>
    if (scheme.head?.any Char.isAlpha) && scheme.all isSchemeChar then
      some (SchemeKind.ofScheme (String.ofList (scheme.map Char.toLower)), rest)
    else none

end ResourceQuery.Url
