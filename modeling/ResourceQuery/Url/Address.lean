import ResourceQuery.Text.Hex
import ResourceQuery.Text.Split

/-! # Numeric addresses

Which texts are addresses, as far as a URL's host is concerned. An IPv4 address has one to four numbers
between points, each decimal, octal after a `0` or hexadecimal after `0x`; the last number fills the
octets that are left. An IPv6 address has eight groups of up to four hexadecimal digits; two colons
stand once for the groups that are left out, and the last two groups may be an IPv4 address in plain
decimal. -/

namespace ResourceQuery.Url

open Text (hexValue?)

/-- The value of digits of a base, put after those of `n`. -/
def digitsIn (base : Nat) (n : Nat) : List Char → Option Nat
  | [] => some n
  | c :: cs =>
    match hexValue? c with
    | some d => if d < base then digitsIn base (n * base + d) cs else none
    | none => none

/-- A part of an IPv4 address. -/
def ipv4Number? : List Char → Option Nat
  | [] => none
  | '0' :: 'x' :: ds => digitsIn 16 0 ds
  | '0' :: 'X' :: ds => digitsIn 16 0 ds
  | '0' :: d :: ds => digitsIn 8 0 (d :: ds)
  | ds => digitsIn 10 0 ds

/-- The parts of a host, without an empty last one. -/
def hostParts (host : List Char) : List (List Char) :=
  let parts := Text.splitOn '.' host
  if parts.getLast? = some [] ∧ parts.length ≠ 1 then parts.dropLast else parts

/-- Whether the last part of a host is a number, so that the host must be an IPv4 address. -/
def endsInNumber (host : List Char) : Bool :=
  match (hostParts host).getLast? with
  | none => false
  | some p => (p ≠ [] && p.all Char.isDigit) || (ipv4Number? p).isSome

/-- Whether a host is an IPv4 address. -/
def isIpv4 (host : List Char) : Bool :=
  let parts := hostParts host
  let numbers := parts.filterMap ipv4Number?
  numbers.length == parts.length && parts.length ≤ 4 &&
    numbers.dropLast.all (· ≤ 255) &&
    match numbers.getLast? with
    | none => false
    | some n => n < Nat.pow 256 (5 - numbers.length)

/-- Whether a text is a number of an IPv4 address in plain decimal. -/
def isOctet (cs : List Char) : Bool :=
  cs ≠ [] && cs.all Char.isDigit && (cs.head? ≠ some '0' || cs.length == 1) &&
    match digitsIn 10 0 cs with
    | some n => n ≤ 255
    | none => false

/-- Whether a text is four such numbers between points. -/
def isDottedQuad (cs : List Char) : Bool :=
  let parts := Text.splitOn '.' cs
  parts.length == 4 && parts.all isOctet

/-- Groups of an IPv6 address after `n` others, in at most `steps` steps; `short` if two colons were
seen. -/
def ipv6From : Nat → Nat → Bool → List Char → Bool
  | 0, _, _, _ => false
  | _ + 1, n, short, [] => short || n == 8
  | steps + 1, n, short, c :: cs =>
    if n = 8 then false
    else if c = ':' then !short && ipv6From steps (n + 1) true cs
    else
      let group := ((c :: cs).take 4).takeWhile fun c => (hexValue? c).isSome
      match (c :: cs).drop group.length with
      | [] => ipv6From steps (n + 1) short []
      | '.' :: _ =>
        group ≠ [] && n ≤ 6 && isDottedQuad (c :: cs) && (short || n + 2 == 8)
      | ':' :: r => r ≠ [] && ipv6From steps (n + 1) short r
      | _ => false

/-- Whether a text is an IPv6 address. -/
def isIpv6 (cs : List Char) : Bool :=
  match cs with
  | ':' :: ':' :: r => ipv6From (r.length + 2) 1 true r
  | ':' :: _ => false
  | [_] => false
  | cs => ipv6From (cs.length + 2) 0 false cs

end ResourceQuery.Url
