import Reckoner.Decimal.Digits

/-! # JSON strings

Between its quotes a string is made of pieces: a character as it stands, an escaped one, or four
hexadecimal digits for a unit of UTF-16. `assemble` joins surrogate pairs; a surrogate without its
partner is well formed but stands for no character. `escape` writes a character, escaping only what
may not stand as it is.
-/

namespace Reckoner.Json.Quoted

/-- A piece of a string. -/
inductive Piece where
  | char (c : Char)
  | unit (value : Nat)
  deriving DecidableEq, Repr

/-! ## Reading -/

/-- The value of a hexadecimal digit. -/
def hexValue? (c : Char) : Option Nat :=
  if c.isDigit then some (c.toNat - '0'.toNat)
  else if 'a' ≤ c ∧ c ≤ 'f' then some (c.toNat - 'a'.toNat + 10)
  else if 'A' ≤ c ∧ c ≤ 'F' then some (c.toNat - 'A'.toNat + 10)
  else none

/-- The character that a letter after a backslash stands for. -/
def unescape? : Char → Option Char
  | '"' => some '"'
  | '\\' => some '\\'
  | '/' => some '/'
  | 'b' => some '\x08'
  | 'f' => some '\x0c'
  | 'n' => some '\n'
  | 'r' => some '\r'
  | 't' => some '\t'
  | _ => none

/-- The first units of surrogate pairs. -/
def isLeading (value : Nat) : Bool :=
  0xD800 ≤ value && value < 0xDC00

/-- The second units of surrogate pairs. -/
def isTrailing (value : Nat) : Bool :=
  0xDC00 ≤ value && value < 0xE000

/-- The character of a surrogate pair. -/
def ofPair (leading trailing : Nat) : Char :=
  Char.ofNat (0x10000 + (leading - 0xD800) * 0x400 + (trailing - 0xDC00))

/-- Appends the characters of the pieces to `done`, which is reversed. -/
def assembleOnto (done : List Char) : List Piece → Option (List Char)
  | [] => some done.reverse
  | .char c :: rest => assembleOnto (c :: done) rest
  | [.unit value] =>
    if isLeading value || isTrailing value then none
    else some (Char.ofNat value :: done).reverse
  | .unit value :: .char c :: rest =>
    if isLeading value || isTrailing value then none
    else assembleOnto (c :: Char.ofNat value :: done) rest
  | .unit value :: .unit next :: rest =>
    if isTrailing value then none
    else if isLeading value then
      if isTrailing next then assembleOnto (ofPair value next :: done) rest else none
    else assembleOnto (Char.ofNat value :: done) (.unit next :: rest)

/-- The text of the pieces, unless a surrogate stands alone. -/
def assemble (pieces : List Piece) : Option String :=
  (assembleOnto [] pieces).map String.ofList

/-! ## Writing -/

/-- A hexadecimal digit. -/
def hexDigit (n : Nat) : Char :=
  if n < 10 then Char.ofNat ('0'.toNat + n) else Char.ofNat ('a'.toNat + (n - 10))

/-- A character inside a string. -/
def escape (c : Char) : List Char :=
  if c = '"' then ['\\', '"']
  else if c = '\\' then ['\\', '\\']
  else if c = '\x08' then ['\\', 'b']
  else if c = '\x0c' then ['\\', 'f']
  else if c = '\n' then ['\\', 'n']
  else if c = '\r' then ['\\', 'r']
  else if c = '\t' then ['\\', 't']
  else if c.toNat < 0x20 then
    ['\\', 'u', '0', '0', hexDigit (c.toNat / 16), hexDigit (c.toNat % 16)]
  else [c]

/-- A string with its quotes. -/
def quote (s : String) : List Char :=
  '"' :: (s.toList.flatMap escape ++ ['"'])

end Reckoner.Json.Quoted
