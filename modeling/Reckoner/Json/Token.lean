import Reckoner.Json
import Reckoner.Json.Quoted

/-! # JSON tokens

A text is divided into marks, strings and lexemes by a machine that takes one character at a time.
A leaf is kept even if it has no value, for a number that is too large or a string with half a
surrogate pair: such a leaf is well formed where nobody asks for its value. How the lexemes of
numbers are read is left open here.
-/

namespace Reckoner.Json

/-- A reading of number lexemes: `none` if one is malformed, `some none` if it has no value. -/
abbrev Number.Reader := List Char → Option (Option Number)

/-- A value without parts. -/
inductive Leaf where
  | null
  | truth (value : Bool)
  | number (value : Option Number)
  | text (value : Option String)

/-- A word of a JSON text. -/
inductive Token where
  | openBracket
  | closeBracket
  | openBrace
  | closeBrace
  | comma
  | colon
  | leaf (value : Leaf)

/-- The token of a single character. -/
def Token.ofMark? : Char → Option Token
  | '[' => some openBracket
  | ']' => some closeBracket
  | '\x7b' => some openBrace
  | '\x7d' => some closeBrace
  | ',' => some comma
  | ':' => some colon
  | _ => none

/-- The leaf of a lexeme: a word or a number. -/
def Leaf.ofLexeme? (numbers : Number.Reader) (lexeme : List Char) : Option Leaf :=
  if lexeme = "null".toList then some null
  else if lexeme = "true".toList then some (truth true)
  else if lexeme = "false".toList then some (truth false)
  else (numbers lexeme).map number

/-- Characters between tokens. -/
def isSpace (c : Char) : Bool :=
  c = ' ' || c = '\t' || c = '\n' || c = '\r'

namespace Lexer

/-- Where the machine stands. What it has gathered is reversed. -/
inductive Mode where
  /-- Outside strings, within the lexeme. -/
  | plain (lexeme : List Char)
  /-- Inside a string. -/
  | quoted (pieces : List Quoted.Piece)
  /-- Behind a backslash. -/
  | escaped (pieces : List Quoted.Piece)
  /-- Within hexadecimal digits, so many of which are missing. -/
  | unit (pieces : List Quoted.Piece) (value : Nat) (missing : Nat)

/-- The tokens so far, reversed, and where the machine stands. -/
structure State where
  tokens : List Token
  mode : Mode

/-- The machine at the beginning. -/
def start : State := ⟨[], .plain []⟩

/-- Closes the lexeme, if one is open. -/
def flush (numbers : Number.Reader) (tokens : List Token) (lexeme : List Char) :
    Option (List Token) :=
  if lexeme = [] then some tokens
  else (Leaf.ofLexeme? numbers lexeme.reverse).map fun leaf => .leaf leaf :: tokens

/-- One character outside strings. -/
def stepPlain (numbers : Number.Reader) (tokens : List Token) (lexeme : List Char) (c : Char) :
    Option State :=
  if c = '"' then (flush numbers tokens lexeme).map fun tokens => ⟨tokens, .quoted []⟩
  else if isSpace c then (flush numbers tokens lexeme).map fun tokens => ⟨tokens, .plain []⟩
  else
    match Token.ofMark? c with
    | some mark => (flush numbers tokens lexeme).map fun tokens => ⟨mark :: tokens, .plain []⟩
    | none => some ⟨tokens, .plain (c :: lexeme)⟩

/-- One character inside a string. -/
def stepQuoted (tokens : List Token) (pieces : List Quoted.Piece) (c : Char) : Option State :=
  if c = '"' then some ⟨.leaf (.text (Quoted.assemble pieces.reverse)) :: tokens, .plain []⟩
  else if c = '\\' then some ⟨tokens, .escaped pieces⟩
  else if c.toNat < 0x20 then none
  else some ⟨tokens, .quoted (.char c :: pieces)⟩

/-- One character. -/
def step (numbers : Number.Reader) (state : State) (c : Char) : Option State :=
  match state.mode with
  | .plain lexeme => stepPlain numbers state.tokens lexeme c
  | .quoted pieces => stepQuoted state.tokens pieces c
  | .escaped pieces =>
    if c = 'u' then some ⟨state.tokens, .unit pieces 0 4⟩
    else (Quoted.unescape? c).map fun c => ⟨state.tokens, .quoted (.char c :: pieces)⟩
  -- The digits of a unit are read as one number; its fourth digit completes the piece.
  | .unit pieces value missing =>
    (Quoted.hexValue? c).map fun digit =>
      let value := 16 * value + digit
      if missing ≤ 1 then ⟨state.tokens, .quoted (.unit value :: pieces)⟩
      else ⟨state.tokens, .unit pieces value (missing - 1)⟩

/-- The tokens of a machine that has seen the whole text. -/
def State.finish? (numbers : Number.Reader) (state : State) : Option (List Token) :=
  match state.mode with
  | .plain lexeme => (flush numbers state.tokens lexeme).map List.reverse
  | _ => none

end Lexer

/-- The tokens of a text, unless it holds something that is none. -/
def tokens? (numbers : Number.Reader) (text : List Char) : Option (List Token) :=
  (text.foldlM (Lexer.step numbers) Lexer.start).bind (Lexer.State.finish? numbers)

end Reckoner.Json
