import Mathlib.Data.List.Basic
import Reckoner.Json.Token
import Reckoner.Json.Writer

/-! # Tokens of JSON text

What is written between quotes is one token with the text that was quoted (`lexes_quote`), and so is
a lexeme (`lexes_lexeme`); a mark ends whatever stands before it (`Lexes.mark`).  Quoted text holds
no control character (`printable_quote`).
-/

namespace Reckoner.Json

variable {numbers : Number.Reader}

/-! ## Pieces of a string -/

namespace Quoted

/-- The piece that is read where a character was written. -/
def pieceOf (c : Char) : Piece :=
  if c.toNat < 0x20 ∧ c ∉ ['\x08', '\x0c', '\n', '\r', '\t'] then .unit c.toNat else .char c

/-- The character of a piece that is no part of a pair. -/
def Piece.toChar : Piece → Char
  | .char c => c
  | .unit value => Char.ofNat value

/-- Whether a piece stands for a character without its neighbours. -/
def Piece.IsAlone : Piece → Prop
  | .char _ => True
  | .unit value => value < 0xD800

theorem not_surrogate (value : Nat) (alone : (Piece.unit value).IsAlone) :
    (isLeading value || isTrailing value) = false := by
  have below : value < 0xD800 := alone
  simp only [isLeading, isTrailing, Bool.or_eq_false_iff, Bool.and_eq_false_iff,
    decide_eq_false_iff_not]
  omega

theorem assembleOnto_of_alone (done : List Char) {pieces : List Piece}
    (alone : ∀ piece ∈ pieces, piece.IsAlone) :
    assembleOnto done pieces = some (done.reverse ++ pieces.map Piece.toChar) := by
  fun_induction assembleOnto done pieces with
  | case1 done => simp
  | case2 done c rest ih =>
    rw [ih fun piece member => alone piece (by simp [member])]
    simp [Piece.toChar]
  | case4 done value => simp [Piece.toChar]
  | case6 done value c rest _ ih =>
    rw [ih fun piece member => alone piece (by simp [member])]
    simp [Piece.toChar]
  | case10 done value next rest _ _ ih =>
    rw [ih fun piece member => alone piece (List.mem_cons_of_mem _ member)]
    simp [Piece.toChar]
  -- The other cases begin with a surrogate.
  | case3 done value | case5 done value | case7 done value | case8 done value
  | case9 done value =>
    have := not_surrogate value (alone _ (by simp))
    simp_all

theorem isAlone_pieceOf (c : Char) : (pieceOf c).IsAlone := by
  unfold pieceOf
  split
  · next control => exact Nat.lt_trans control.1 (by decide)
  · trivial

theorem toChar_pieceOf (c : Char) : (pieceOf c).toChar = c := by
  unfold pieceOf
  split
  · exact Char.ofNat_toNat c
  · rfl

/-- The pieces of a text make up the text. -/
theorem assemble_pieces (s : String) : assemble (s.toList.map pieceOf) = some s := by
  have alone : ∀ piece ∈ s.toList.map pieceOf, piece.IsAlone := by
    intro piece member
    obtain ⟨c, -, rfl⟩ := List.mem_map.1 member
    exact isAlone_pieceOf c
  have chars : (s.toList.map pieceOf).map Piece.toChar = s.toList := by
    simp [Function.comp_def, toChar_pieceOf]
  rw [assemble, assembleOnto_of_alone [] alone, chars]
  simp

theorem hexValue?_hexDigit {n : Nat} (small : n < 16) : hexValue? (hexDigit n) = some n := by
  have table : ∀ n, n < 16 → hexValue? (hexDigit n) = some n := by decide
  exact table n small

/-- The ways to write a character, each with the piece that is read. -/
inductive Escape (c : Char) : List Char → Piece → Prop
  | letter {letter : Char} (means : unescape? letter = some c) (printable : 0x20 ≤ letter.toNat) :
      Escape c ['\\', letter] (.char c)
  | unit (control : c.toNat < 0x20) :
      Escape c ['\\', 'u', '0', '0', hexDigit (c.toNat / 16), hexDigit (c.toNat % 16)]
        (.unit c.toNat)
  | plain (not_quote : c ≠ '"') (not_backslash : c ≠ '\\') (printable : 0x20 ≤ c.toNat) :
      Escape c [c] (.char c)

/-- The characters that are written as a letter, each with its letter. -/
def letters : List (Char × Char) :=
  [('"', '"'), ('\\', '\\'), ('\x08', 'b'), ('\x0c', 'f'), ('\n', 'n'), ('\r', 'r'), ('\t', 't')]

theorem escape_of_letter {c letter : Char} (lettered : (c, letter) ∈ letters) :
    Escape c (escape c) (pieceOf c) := by
  have table : ∀ entry ∈ letters, escape entry.1 = ['\\', entry.2] ∧
      pieceOf entry.1 = .char entry.1 ∧ unescape? entry.2 = some entry.1 ∧
      0x20 ≤ entry.2.toNat := by decide
  obtain ⟨text, piece, means, printable⟩ := table _ lettered
  rw [text, piece]
  exact .letter means printable

theorem escape_pieceOf (c : Char) : Escape c (escape c) (pieceOf c) := by
  by_cases lettered : c ∈ letters.map Prod.fst
  · obtain ⟨⟨c, letter⟩, member, rfl⟩ := List.mem_map.1 lettered
    exact escape_of_letter member
  · simp only [letters, List.map_cons, List.map_nil, List.mem_cons, List.not_mem_nil, or_false,
      not_or] at lettered
    by_cases control : c.toNat < 0x20
    · simpa [escape, pieceOf, lettered, control] using Escape.unit control
    · simpa [escape, pieceOf, lettered, control] using
        Escape.plain lettered.1 lettered.2.1 (Nat.le_of_not_lt control)

end Quoted

/-! ## Characters -/

/-- A character that neither ends a line nor otherwise controls it. -/
def Printable (c : Char) : Prop :=
  0x20 ≤ c.toNat

/-- A character that belongs to the lexeme it follows. -/
structure InLexeme (c : Char) : Prop where
  printable : Printable c
  not_quote : c ≠ '"'
  not_space : isSpace c = false
  not_mark : Token.ofMark? c = none

theorem inLexeme_of_isDigit {c : Char} (digit : c.isDigit = true) : InLexeme c := by
  refine ⟨?_, ?_, ?_, ?_⟩
  · rw [Char.isDigit, Bool.and_eq_true, decide_eq_true_eq] at digit
    exact Nat.le_trans (by decide) (UInt32.le_iff_toNat_le.1 digit.1)
  · rintro rfl
    exact absurd digit (by decide)
  · rw [isSpace, Bool.eq_false_iff]
    intro space
    simp only [Bool.or_eq_true, decide_eq_true_eq] at space
    obtain ((rfl | rfl) | rfl) | rfl := space <;> exact absurd digit (by decide)
  · unfold Token.ofMark?
    split
    all_goals first | rfl | exact absurd digit (by decide)

/-- The characters of numbers and words that are no digits. -/
def lexemeMarks : List Char :=
  ['-', '+', '.', 'e', 'E', 'n', 'u', 'l', 't', 'r', 'f', 'a', 's']

theorem inLexeme_of_mem {c : Char} (member : c ∈ lexemeMarks) : InLexeme c := by
  have table : lexemeMarks.all (fun c => 0x20 ≤ c.toNat ∧ c ≠ '"' ∧ isSpace c = false ∧
      Token.ofMark? c = none) = true := by decide
  obtain ⟨printable, quote, space, mark⟩ := of_decide_eq_true (List.all_eq_true.1 table c member)
  exact ⟨printable, quote, space, mark⟩

theorem inLexeme_of_word {word : String} (isWord : word ∈ ["null", "true", "false"]) :
    ∀ c ∈ word.toList, InLexeme c := by
  have table : ["null", "true", "false"].all
      (fun word => word.toList.all fun c => c ∈ lexemeMarks) = true := by decide
  intro c hc
  have listed := List.all_eq_true.1 (List.all_eq_true.1 table word isWord) c hc
  exact inLexeme_of_mem (of_decide_eq_true listed)

theorem printable_escape {c d : Char} (member : d ∈ Quoted.escape c) : Printable d := by
  have hex : ∀ n, n < 16 → 0x20 ≤ (Quoted.hexDigit n).toNat := by decide
  have written := Quoted.escape_pieceOf c
  generalize Quoted.escape c = text at written member
  generalize Quoted.pieceOf c = piece at written
  cases written with
  | letter means printable =>
    simp only [List.mem_cons, List.not_mem_nil, or_false] at member
    obtain rfl | rfl := member
    · exact (by decide : 0x20 ≤ '\\'.toNat)
    · exact printable
  | unit control =>
    simp only [List.mem_cons, List.not_mem_nil, or_false] at member
    obtain rfl | rfl | rfl | rfl | rfl | rfl := member
    · exact (by decide : 0x20 ≤ '\\'.toNat)
    · exact (by decide : 0x20 ≤ 'u'.toNat)
    · exact (by decide : 0x20 ≤ '0'.toNat)
    · exact (by decide : 0x20 ≤ '0'.toNat)
    · exact hex _ (by omega)
    · exact hex _ (by omega)
  | plain not_quote not_backslash printable =>
    rw [List.mem_singleton.1 member]
    exact printable

theorem printable_quote {s : String} {c : Char} (member : c ∈ Quoted.quote s) : Printable c := by
  rw [Quoted.quote, List.mem_cons, List.mem_append, List.mem_singleton] at member
  obtain rfl | member | rfl := member
  · exact (by decide : 0x20 ≤ '"'.toNat)
  · obtain ⟨d, -, hd⟩ := List.mem_flatMap.1 member
    exact printable_escape hd
  · exact (by decide : 0x20 ≤ '"'.toNat)

/-! ## Dividing a text -/

/-- From outside strings a text is divided into these tokens, the last of which may still be open. -/
def Lexes (numbers : Number.Reader) (text : List Char) (tokens : List Token) : Prop :=
  ∀ before, ∃ held lexeme,
    text.foldlM (Lexer.step numbers) ⟨before, .plain []⟩ = some ⟨held, .plain lexeme⟩ ∧
      Lexer.flush numbers held lexeme = some (tokens.reverse ++ before)

theorem tokens?_of_lexes {text : List Char} {tokens : List Token}
    (lexes : Lexes numbers text tokens) : tokens? numbers text = some tokens := by
  obtain ⟨held, lexeme, run, closed⟩ := lexes []
  simp [tokens?, Lexer.start, run, Lexer.State.finish?, closed]

theorem lexes_nil : Lexes numbers [] [] :=
  fun before => ⟨before, [], rfl, rfl⟩

/-- A mark closes what stands before it, and nothing is open behind it. -/
theorem Lexes.mark {front back : List Char} {fronts backs : List Token} {c : Char} {mark : Token}
    (left : Lexes numbers front fronts) (isMark : Token.ofMark? c = some mark)
    (right : Lexes numbers back backs) :
    Lexes numbers (front ++ c :: back) (fronts ++ mark :: backs) := by
  intro before
  obtain ⟨held, lexeme, run, closed⟩ := left before
  -- The back is divided as if the mark and all before it were there from the beginning.
  obtain ⟨held', lexeme', run', closed'⟩ := right (mark :: (fronts.reverse ++ before))
  have not_quote : c ≠ '"' := by
    rintro rfl
    cases isMark
  have not_space : isSpace c = false := by
    rw [isSpace, Bool.eq_false_iff]
    intro space
    simp only [Bool.or_eq_true, decide_eq_true_eq] at space
    obtain ((rfl | rfl) | rfl) | rfl := space <;> cases isMark
  have step : Lexer.step numbers ⟨held, .plain lexeme⟩ c =
      some ⟨mark :: (fronts.reverse ++ before), .plain []⟩ := by
    simp [Lexer.step, Lexer.stepPlain, not_quote, not_space, isMark, closed]
  refine ⟨held', lexeme', ?_, ?_⟩
  · rw [List.foldlM_append, run, Option.bind_eq_bind, Option.bind_some, List.foldlM_cons, step,
      Option.bind_eq_bind, Option.bind_some, run']
  · simpa using closed'

theorem step_inLexeme {held : List Token} {lexeme : List Char} {c : Char} (part : InLexeme c) :
    Lexer.step numbers ⟨held, .plain lexeme⟩ c = some ⟨held, .plain (c :: lexeme)⟩ := by
  simp [Lexer.step, Lexer.stepPlain, part.not_quote, part.not_space, part.not_mark]

theorem run_inLexeme {held : List Token} {lexeme text : List Char}
    (parts : ∀ c ∈ text, InLexeme c) :
    text.foldlM (Lexer.step numbers) ⟨held, .plain lexeme⟩ =
      some ⟨held, .plain (text.reverse ++ lexeme)⟩ := by
  induction text generalizing lexeme with
  | nil => rfl
  | cons c text ih =>
    rw [List.foldlM_cons, step_inLexeme (parts c List.mem_cons_self), Option.bind_eq_bind,
      Option.bind_some, ih fun d hd => parts d (List.mem_cons_of_mem c hd)]
    simp

theorem lexes_lexeme {text : List Char} {leaf : Leaf} (nonempty : text ≠ [])
    (parts : ∀ c ∈ text, InLexeme c) (value : Leaf.ofLexeme? numbers text = some leaf) :
    Lexes numbers text [.leaf leaf] := by
  intro before
  refine ⟨before, text.reverse, ?_, ?_⟩
  · rw [run_inLexeme parts, List.append_nil]
  · simp [Lexer.flush, nonempty, value]

theorem run_escape {held : List Token} {pieces : List Quoted.Piece} (c : Char) :
    (Quoted.escape c).foldlM (Lexer.step numbers) ⟨held, .quoted pieces⟩ =
      some ⟨held, .quoted (Quoted.pieceOf c :: pieces)⟩ := by
  have written := Quoted.escape_pieceOf c
  generalize Quoted.escape c = text at written
  generalize Quoted.pieceOf c = piece at written
  cases written with
  | @letter letter means printable =>
    have not_unit : letter ≠ 'u' := by
      rintro rfl
      cases means
    simp [Lexer.step, Lexer.stepQuoted, not_unit, means]
  | unit control =>
    -- Four digits, the first two of them zero, give the code of the character back.
    have zero : Quoted.hexValue? '0' = some 0 := rfl
    have high := Quoted.hexValue?_hexDigit (n := c.toNat / 16) (by omega)
    have low := Quoted.hexValue?_hexDigit (n := c.toNat % 16) (by omega)
    have value : 16 * (c.toNat / 16) + c.toNat % 16 = c.toNat := Nat.div_add_mod c.toNat 16
    simp [Lexer.step, Lexer.stepQuoted, zero, high, low, value]
  | plain not_quote not_backslash printable =>
    simp [Lexer.step, Lexer.stepQuoted, not_quote, not_backslash, Nat.not_lt.2 printable]

theorem run_escapes {held : List Token} {pieces : List Quoted.Piece} (text : List Char) :
    (text.flatMap Quoted.escape).foldlM (Lexer.step numbers) ⟨held, .quoted pieces⟩ =
      some ⟨held, .quoted ((text.map Quoted.pieceOf).reverse ++ pieces)⟩ := by
  induction text generalizing pieces with
  | nil => rfl
  | cons c text ih =>
    rw [List.flatMap_cons, List.foldlM_append, run_escape, Option.bind_eq_bind, Option.bind_some,
      ih]
    simp

theorem lexes_quote (s : String) :
    Lexes numbers (Quoted.quote s) [.leaf (.text (some s))] := by
  intro before
  refine ⟨_, [], ?_, rfl⟩
  have opening : Lexer.step numbers ⟨before, .plain []⟩ '"' = some ⟨before, .quoted []⟩ := rfl
  have closing (pieces : List Quoted.Piece) :
      Lexer.step numbers ⟨before, .quoted pieces⟩ '"' =
        some ⟨.leaf (.text (Quoted.assemble pieces.reverse)) :: before, .plain []⟩ := rfl
  rw [Quoted.quote, List.foldlM_cons, opening, Option.bind_eq_bind, Option.bind_some,
    List.foldlM_append, run_escapes, Option.bind_eq_bind, Option.bind_some, List.foldlM_cons,
    closing, List.append_nil, List.reverse_reverse, Quoted.assemble_pieces]
  rfl

end Reckoner.Json
