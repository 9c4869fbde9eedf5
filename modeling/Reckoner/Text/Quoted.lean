import Reckoner.Text.Hidden

/-! # Text in quotation marks

How records for developers show a text: in double quotes, with short escapes for the common
controls, for the quote and for the backslash, and code points for what is not shown as it is.
-/

namespace Reckoner.Text

/-- A hexadecimal number in lower case. -/
def hexText (n : Nat) : List Char :=
  Nat.toDigits 16 n

/-- A character between double quotes. -/
def quotedChar (c : Char) : List Char :=
  if c = '\x00' then ['\\', '0']
  else if c = '\t' then ['\\', 't']
  else if c = '\r' then ['\\', 'r']
  else if c = '\n' then ['\\', 'n']
  else if c = '"' ∨ c = '\\' then ['\\', c]
  else if isHidden c then ['\\', 'u', '\x7b'] ++ hexText c.toNat ++ ['\x7d']
  else [c]

/-- A text in double quotes. -/
def quoted (text : String) : String :=
  String.ofList ('"' :: (text.toList.flatMap quotedChar ++ ['"']))

end Reckoner.Text
