import ResourceQuery.Url.Domain
import ResourceQuery.Url.Path

/-! # Authorities

What stands between the two slashes of a URL and its path: credentials up to the last `@`, a host, and a
number after a colon. None of it is kept, but all of it has to be valid. -/

namespace ResourceQuery

/-- **Why a URL is refused.** -/
inductive UrlError where
  | emptyHost
  | invalidPort
  | invalidDomain
  | invalidIpv4
  | invalidIpv6
  | invalidDomainCharacter
deriving DecidableEq, Repr

/-- The wording of an error. -/
def UrlError.message : UrlError → String
  | emptyHost => "empty host"
  | invalidPort => "invalid port number"
  | invalidDomain => "invalid international domain name"
  | invalidIpv4 => "invalid IPv4 address"
  | invalidIpv6 => "invalid IPv6 address"
  | invalidDomainCharacter => "invalid domain character"

namespace Url

/-- The credentials before the last `@`, and what follows it. -/
def splitCredentials (cs : List Char) : Option (List Char) × List Char :=
  match Text.splitOnce '@' cs.reverse with
  | some (host, credentials) => (some credentials.reverse, host.reverse)
  | none => (none, cs)

/-- Whether credentials name anyone. -/
def nameAnyone (credentials : Option (List Char)) : Bool :=
  match credentials with
  | none | some [] | some [':'] => false
  | some _ => true

/-- The host before the first colon outside of brackets, and what follows. -/
def spanHost : Bool → List Char → List Char × List Char
  | _, [] => ([], [])
  | inside, c :: cs =>
    if c = ':' ∧ !inside then ([], c :: cs)
    else Prod.map (c :: ·) id (spanHost (c == '[' || (inside && c != ']')) cs)

/-- A host in brackets. -/
def checkBracketed (cs : List Char) : Except UrlError Unit :=
  if cs.getLast? = some ']' && isIpv6 (cs.drop 1).dropLast then .ok () else .error .invalidIpv6

/-- A host as a domain or an address. -/
def checkDomain (host : List Char) : Except UrlError Unit :=
  match host with
  | [] => .error .emptyHost
  | '[' :: _ => checkBracketed host
  | _ =>
    match domain? host with
    | none => .error .invalidDomain
    | some [] => .error .emptyHost
    | some name => if endsInNumber name && !isIpv4 name then .error .invalidIpv4 else .ok ()

/-- Characters that no host holds. -/
def isDeniedInHost (c : Char) : Bool := "\x00\t\n\r #/:<>?@[\\]^|".toList.contains c

/-- A host that need not be a domain, and may be missing. -/
def checkOpaqueHost (host : List Char) : Except UrlError Unit :=
  match host with
  | '[' :: _ => checkBracketed host
  | _ => if host.any isDeniedInHost then .error .invalidDomainCharacter else .ok ()

/-- What follows the number of a service, which is below `2 ^ 16`: nothing, or a path from a backslash
on. -/
def afterPort (cs : List Char) : Except UrlError (List Char) :=
  let digits := cs.takeWhile Char.isDigit
  match digitsIn 10 0 digits with
  | none => .error .invalidPort
  | some n =>
    if 65536 ≤ n then .error .invalidPort
    else match cs.drop digits.length with
      | [] => .ok []
      | '\\' :: r => .ok ('\\' :: r)
      | _ => .error .invalidPort

/-- What follows a host. -/
def afterHost : List Char → Except UrlError (List Char)
  | ':' :: number => afterPort number
  | rest => .ok rest

/-- **What follows an authority**, which is checked. -/
def afterAuthority (kind : SchemeKind) (cs : List Char) : Except UrlError (List Char) := do
  let authority := cs.takeWhile fun c => !kind.endsAuthority c
  let rest := cs.drop authority.length
  let (credentials, address) := splitCredentials authority
  let (host, tail) := spanHost false address
  if credentials = some [] ∧ address = [] ∧ rest ≠ [] then throw .emptyHost
  if kind = .other then
    checkOpaqueHost host
    if host = [] ∧ (tail ≠ [] ∨ nameAnyone credentials) then throw .emptyHost
  else checkDomain host
  return (← afterHost tail) ++ rest

/-- What follows the host of a file, which may be missing; a drive letter is no host. -/
def afterFileHost (cs : List Char) : Except UrlError (List Char) := do
  let host := cs.takeWhile fun c => !SchemeKind.file.endsAuthority c
  if host = [] ∨ isDriveLetter host then return cs
  checkDomain host
  return cs.drop host.length

end Url

end ResourceQuery
