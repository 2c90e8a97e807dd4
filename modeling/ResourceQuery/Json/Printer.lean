import ResourceQuery.Json.Number
import ResourceQuery.Text.Hex

/-! # JSON text, written

No spaces; in strings only quotes, backslashes and the characters below the space are escaped, with
the short escape where there is one. A tree that names a key twice is written as it is. -/

namespace ResourceQuery.Json

open Text (lowerHexDigit)

/-- A character as it stands in a string. -/
def escapedChar (c : Char) : List Char :=
  if c = '"' then ['\\', '"']
  else if c = '\\' then ['\\', '\\']
  else if c = '\n' then ['\\', 'n']
  else if c = '\r' then ['\\', 'r']
  else if c = '\t' then ['\\', 't']
  else if c = '\x08' then ['\\', 'b']
  else if c = '\x0c' then ['\\', 'f']
  else if c.toNat < 0x20 then
    ['\\', 'u', '0', '0', lowerHexDigit (c.toNat / 16), lowerHexDigit (c.toNat % 16)]
  else [c]

/-- A string with its quotes. -/
def stringText (s : String) : List Char := '"' :: s.toList.flatMap escapedChar ++ ['"']

mutual
/-- The characters of a value's text. -/
def chars : Json → List Char
  | null => ['n', 'u', 'l', 'l']
  | bool true => ['t', 'r', 'u', 'e']
  | bool false => ['f', 'a', 'l', 's', 'e']
  | int n => intText n
  | double x => doubleText x
  | str s => stringText s
  | arr [] => ['[', ']']
  | arr (v :: vs) => '[' :: chars v ++ itemsTail vs
  | obj [] => ['\x7b', '\x7d']
  | obj ((k, v) :: fs) => '\x7b' :: stringText k ++ ':' :: chars v ++ fieldsTail fs

/-- Further items and the closing bracket. -/
def itemsTail : List Json → List Char
  | [] => [']']
  | v :: vs => ',' :: chars v ++ itemsTail vs

/-- Further fields and the closing brace. -/
def fieldsTail : List (String × Json) → List Char
  | [] => ['\x7d']
  | (k, v) :: fs => ',' :: stringText k ++ ':' :: chars v ++ fieldsTail fs
end

/-- **The text of a value.** -/
def text (v : Json) : String := String.ofList (chars v)

end ResourceQuery.Json
