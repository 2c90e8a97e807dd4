import ResourceQuery.Text.Percent
import ResourceQuery.Url.Address
import ResourceQuery.Url.Characters
import ResourceQuery.Url.Punycode

/-! # Domains

What a host name that may hold any character is as a domain. Escapes are read first; then letters
become small, forms of ASCII text become that text, some characters vanish and others are refused, and
three more full stops separate labels as `.` does. A label that starts with `xn--` spells another in
Punycode.

A label does not begin with a mark, and the marks without width stand in it only where they change how
letters join. Beside letters that are read from right to left every label has one direction.

A domain that ends in a number is an IPv4 address or nothing. -/

namespace ResourceQuery.Url

/-! ## Characters -/

/-- The ASCII characters that no domain holds: controls, the space, and what separates the parts of a
URL. -/
def isDeniedAscii (c : Char) : Bool :=
  c.toNat ≤ 0x20 || c.toNat == 0x7F || "%#/:<>?@[\\]^|".toList.contains c

/-- What an ASCII character becomes in a domain. -/
def domainAscii? (c : Char) : Option (List Char) :=
  if isDeniedAscii c then none else some [c.toLower]

/-- What a character becomes in a domain; nothing if it makes the domain invalid. One that stands for
another beyond ASCII is left as it is, since that makes no difference to what the host is. -/
def domainChar? (c : Char) : Option (List Char) :=
  let n := c.toNat
  if n < 0x80 then domainAscii? c
  else if Text.inRanges ignoredRanges n then some []
  else if n = 0x3002 ∨ n = 0xFF0E ∨ n = 0xFF61 then some ['.']
  else if c = joiner ∨ c = nonJoiner then some [c]
  else if Text.isHidden c || Text.inRanges refusedRanges n then none
  else match plainForm? n with
    | none => some [c]
    | some form => (form.mapM domainAscii?).map List.flatten

/-! ## Labels -/

/-- Whether letters would join over the place between two texts, the first of them in reverse order. -/
def wouldJoin (before after : List Char) : Bool :=
  (before.dropWhile isPlacelessMark).head?.any joinsNext &&
    (after.dropWhile isPlacelessMark).head?.any joinsPrevious

/-- Whether the marks without width stand where they may, after the characters `before` in reverse
order: either of them where a vowel was taken, and the one that keeps letters apart also where they
would join. -/
def joinersFit (before : List Char) : List Char → Bool
  | [] => true
  | c :: cs =>
    ((c != joiner && c != nonJoiner) || before.head?.any isVowelKiller ||
      (c == nonJoiner && wouldJoin before cs)) && joinersFit (c :: before) cs

/-- Whether a label in its own characters is one: it does not begin with a mark, and its marks without width
stand where they may. -/
def isLabel (cs : List Char) : Bool :=
  !cs.head?.any (fun c => Text.isMark c || isSpacingMark c) && joinersFit [] cs

/-- The label that a text spells. It is not all ASCII, and no character of it stands for another. -/
def spelled? (cs : List Char) : Option (List Char) := do
  let label ← Punycode.decode? cs
  if cs.all (·.toNat < 0x80) && cs.getLast? ≠ some '-' && label.any (0x80 ≤ ·.toNat) &&
      label.all (fun c => domainChar? c == some [c] && c ≠ '.' && !isFolded c) then some label else none

/-- A label in its own characters, if it is one or spells one. -/
def label? (cs : List Char) : Option (List Char) := do
  let label ← match Text.dropLead? "xn--".toList cs with
    | none => some cs
    | some spelling => spelled? spelling
  if isLabel label then some label else none

/-! ## Directions -/

/-- Whether a text has characters that are read from right to left. -/
def hasRightToLeft (cs : List Char) : Bool :=
  cs.any fun c => direction c == .rightToLeft || direction c == .arabicNumber

/-- **Whether a label has one direction**: it starts with a letter, has no letter of the other direction,
and ends with a letter or a number, marks apart. Numbers of both kinds do not stand together. -/
def hasOneDirection (label : List Char) : Bool :=
  let ds := label.map direction
  let last := (ds.reverse.dropWhile (· == .mark)).head?
  match ds.head? with
  | none => true
  | some .leftToRight =>
    !hasRightToLeft label && (last == some .leftToRight || last == some .number)
  | some .rightToLeft =>
    !ds.contains .leftToRight && !(ds.contains .number && ds.contains .arabicNumber) &&
      (last == some .rightToLeft || last == some .number || last == some .arabicNumber)
  | some _ => false

/-! ## Names -/

/-- **The domain that a host names**, if it names one. -/
def domain? (host : List Char) : Option (List Char) := do
  let cs ← (Text.Percent.decode host).mapM domainChar?
  let name := cs.flatten
  let labels ← (Text.splitOn '.' name).mapM label?
  if labels.any hasRightToLeft && !labels.all hasOneDirection then none else some name

end ResourceQuery.Url
