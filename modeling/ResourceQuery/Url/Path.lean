import ResourceQuery.Text.Percent
import ResourceQuery.Url.Scheme

/-! # Paths

The path of a URL, segment by segment. A segment of one point is left out, and one of two points takes
the segment before it away, unless that is a drive letter; a point may be written as an escape. A path
that ends in such a segment ends in a slash.

Characters that no path holds are escaped, octet by octet. -/

namespace ResourceQuery.Url

/-- Characters that no path holds. -/
def isEscapedInPath (c : Char) : Bool :=
  c.toNat ≤ 0x20 || 0x7F ≤ c.toNat || "\"<>`\x7b\x7d".toList.contains c

/-- Characters that a path without segments does not hold. -/
def isEscapedInOpaquePath (c : Char) : Bool := c.toNat < 0x20 || 0x7F ≤ c.toNat

/-- How many points a segment is made of, if it is made of points. -/
def points? : List Char → Option Nat
  | [] => some 0
  | '.' :: cs => (points? cs).map (· + 1)
  | '%' :: '2' :: e :: cs => if e = 'e' ∨ e = 'E' then (points? cs).map (· + 1) else none
  | _ => none

/-- Whether a segment is a drive letter. -/
def isDriveLetter : List Char → Bool
  | [a, b] => a.isAlpha && (b == ':' || b == '|')
  | _ => false

/-- The segments, last one first, after a segment of two points. -/
def dropSegment : List (List Char) → List (List Char)
  | [] => []
  | s :: done => if isDriveLetter s then s :: done else done

/-- The segments, last one first, with one more. A drive letter that comes first in the path of a file
is written with a colon. -/
def addSegment (kind : SchemeKind) (s : List Char) : List (List Char) → List (List Char)
  | [] => [if kind = .file && isDriveLetter s then s.take 1 ++ [':'] else s]
  | done => s :: done

/-- **The segments that are left when points are resolved**, put after those that are done, which are
given last one first. -/
def resolveSegments (kind : SchemeKind) (done : List (List Char)) :
    List (List Char) → List (List Char)
  | [] => done.reverse
  | [s] =>
    match points? s with
    | some 1 => done.reverse ++ [[]]
    | some 2 => (dropSegment done).reverse ++ [[]]
    | _ => (addSegment kind s done).reverse
  | s :: s' :: ss =>
    match points? s with
    | some 1 => resolveSegments kind done (s' :: ss)
    | some 2 => resolveSegments kind (dropSegment done) (s' :: ss)
    | _ => resolveSegments kind (addSegment kind s done) (s' :: ss)

/-- The path as segments make it. -/
def segmentedPath (kind : SchemeKind) (cs : List Char) : List Char :=
  let cs := kind.withSlashes cs
  let segments := resolveSegments kind [] (Text.splitOn '/' ((Text.dropLead? ['/'] cs).getD cs))
  '/' :: Text.Percent.encode isEscapedInPath (Text.joinWith ['/'] segments)

/-- **The path of a URL**, as it is written there. The path of a file has one slash in front, and only
a URL of another scheme may have no path. -/
def normalPath (kind : SchemeKind) (cs : List Char) : List Char :=
  match kind with
  | .web => segmentedPath .web cs
  | .file => '/' :: (segmentedPath .file cs).dropWhile (· == '/')
  | .other => if cs = [] then [] else segmentedPath .other cs

end ResourceQuery.Url
