import ResourceQuery.Json.Number
import ResourceQuery.Text.Blank
import ResourceQuery.Text.Hex

/-! # JSON text, read

One value between layout, nothing before or after it. At most 127 arrays and objects may stand inside
one another. A key that comes again keeps its first place and takes the last value. Control characters
in strings, unpaired surrogate escapes and numbers out of range are refused.

Nesting is counted down by the parser of what stands inside brackets (`valueAt`), and a list of items
or fields is read with as many steps as there are characters left, which is always enough since each
item takes at least one. -/

namespace ResourceQuery.Json

open Text (hexValue? skipLayout)

/-- Reading a piece off the front of a text. -/
abbrev Reader (α : Type) := List Char → Option (α × List Char)

/-- Four hexadecimal digits. -/
def unit? : Reader Nat
  | a :: b :: c :: d :: cs =>
    match hexValue? a, hexValue? b, hexValue? c, hexValue? d with
    | some a, some b, some c, some d => some (((a * 16 + b) * 16 + c) * 16 + d, cs)
    | _, _, _, _ => none
  | _ => none

/-- What follows `\u`: one code point, or a surrogate and its partner. -/
def codePoint? (cs : List Char) : Option (Char × List Char) :=
  (unit? cs).bind fun (u, rest) =>
    if 0xDC00 ≤ u ∧ u ≤ 0xDFFF then none
    else if 0xD800 ≤ u ∧ u ≤ 0xDBFF then
      match rest with
      | '\\' :: 'u' :: rest' =>
        (unit? rest').bind fun (l, rest'') =>
          if 0xDC00 ≤ l ∧ l ≤ 0xDFFF then
            some (Char.ofNat (0x10000 + (u - 0xD800) * 0x400 + (l - 0xDC00)), rest'')
          else none
      | _ => none
    else some (Char.ofNat u, rest)

/-- What follows a backslash. -/
def escape? : Reader Char
  | '"' :: cs => some ('"', cs)
  | '\\' :: cs => some ('\\', cs)
  | '/' :: cs => some ('/', cs)
  | 'b' :: cs => some ('\x08', cs)
  | 'f' :: cs => some ('\x0c', cs)
  | 'n' :: cs => some ('\n', cs)
  | 'r' :: cs => some ('\r', cs)
  | 't' :: cs => some ('\t', cs)
  | 'u' :: cs => codePoint? cs
  | _ => none

/-- The characters of a string up to its closing quote, in at most `n` steps. -/
def stringChars : Nat → Reader (List Char)
  | 0, _ => none
  | n + 1, cs =>
    match cs with
    | [] => none
    | '"' :: cs => some ([], cs)
    | '\\' :: cs =>
      (escape? cs).bind fun (c, rest) => (stringChars n rest).map fun (s, r) => (c :: s, r)
    | c :: cs =>
      if c.toNat < 0x20 then none else (stringChars n cs).map fun (s, r) => (c :: s, r)

/-- A string after its opening quote. -/
def string? (cs : List Char) : Option (String × List Char) :=
  (stringChars (cs.length + 1) cs).map fun (s, r) => (String.ofList s, r)

/-- Items from the first one to the closing bracket, in at most `n` steps. -/
def itemsFrom (value : Reader Json) : Nat → Reader (List Json)
  | 0, _ => none
  | n + 1, cs =>
    (value cs).bind fun (v, rest) =>
      match skipLayout rest with
      | ',' :: r => (itemsFrom value n r).map fun (vs, r) => (v :: vs, r)
      | ']' :: r => some ([v], r)
      | _ => none

/-- An array after its opening bracket. -/
def array? (value : Reader Json) (cs : List Char) : Option (Json × List Char) :=
  match skipLayout cs with
  | ']' :: r => some (arr [], r)
  | r => (itemsFrom value (r.length + 1) r).map fun (vs, r) => (arr vs, r)

/-- A key with its value. -/
def fieldAt (value : Reader Json) (cs : List Char) : Option ((String × Json) × List Char) :=
  match skipLayout cs with
  | '"' :: r =>
    (string? r).bind fun (k, r) =>
      match skipLayout r with
      | ':' :: r => (value r).map fun (v, r) => ((k, v), r)
      | _ => none
  | _ => none

/-- Fields from the first one to the closing brace, in at most `n` steps. -/
def fieldsFrom (value : Reader Json) : Nat → Reader (List (String × Json))
  | 0, _ => none
  | n + 1, cs =>
    (fieldAt value cs).bind fun (f, rest) =>
      match skipLayout rest with
      | ',' :: r => (fieldsFrom value n r).map fun (fs, r) => (f :: fs, r)
      | '\x7d' :: r => some ([f], r)
      | _ => none

/-- An object after its opening brace. -/
def object? (value : Reader Json) (cs : List Char) : Option (Json × List Char) :=
  match skipLayout cs with
  | '\x7d' :: r => some (obj [], r)
  | r => (fieldsFrom value (r.length + 1) r).map fun (fs, r) => (obj (Entries.ofList fs), r)

/-- A value whose arrays and objects are read as given. -/
def valueWith (array object : Reader Json) (cs : List Char) : Option (Json × List Char) :=
  match skipLayout cs with
  | 'n' :: 'u' :: 'l' :: 'l' :: r => some (null, r)
  | 't' :: 'r' :: 'u' :: 'e' :: r => some (bool true, r)
  | 'f' :: 'a' :: 'l' :: 's' :: 'e' :: r => some (bool false, r)
  | '"' :: r => (string? r).map fun (s, r) => (str s, r)
  | '[' :: r => array r
  | '\x7b' :: r => object r
  | r => number? r

/-- A value with at most this many arrays and objects inside one another. -/
def valueAt : Nat → Reader Json
  | 0 => valueWith (fun _ => none) (fun _ => none)
  | n + 1 => valueWith (array? (valueAt n)) (object? (valueAt n))

/-- The deepest nesting that is read. -/
def maxNesting : Nat := 127

/-- The value that the characters are the text of. -/
def ofChars? (cs : List Char) : Option Json :=
  (valueAt maxNesting cs).bind fun (v, rest) => if skipLayout rest = [] then some v else none

/-- **The value that a text is.** -/
def parse? (s : String) : Option Json := ofChars? s.toList

end ResourceQuery.Json
