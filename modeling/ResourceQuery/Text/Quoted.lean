import ResourceQuery.Text.Unshown

/-! # Quoted text

How an error message shows a piece of the request: between double quotes, with a backslash before
quotes and backslashes, short escapes for line feed, carriage return, tab and the null character, and
an escape that names the code point, in lower-case hexadecimal between braces, for every other
character that is not shown as it is. -/

namespace ResourceQuery.Text

/-- A code point in lower-case hexadecimal, without leading zeros. -/
def hexText (n : Nat) : List Char := Nat.toDigits 16 n

/-- A character as it stands between the quotes. -/
def quotedChar (c : Char) : List Char :=
  if c = '"' then ['\\', '"']
  else if c = '\\' then ['\\', '\\']
  else if c = '\n' then ['\\', 'n']
  else if c = '\r' then ['\\', 'r']
  else if c = '\t' then ['\\', 't']
  else if c = '\x00' then ['\\', '0']
  else if isUnshown c then ['\\', 'u', '\x7b'] ++ hexText c.toNat ++ ['\x7d']
  else [c]

/-- **The text between quotes.** -/
def quoted (s : String) : String :=
  String.ofList ('"' :: s.toList.flatMap quotedChar ++ ['"'])

end ResourceQuery.Text
