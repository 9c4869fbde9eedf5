import Mathlib.Data.List.Basic
import Reckoner.Expression.Value
import Reckoner.Proofs.Bytes
import Reckoner.Proofs.Parentheses

/-! # Evaluation over bytes

An evaluation can read its text in place: it looks for operators, commas and parentheses byte by
byte, and cuts the text at the offsets where it finds them.  That a cut falls between two characters
is nowhere checked in advance, so each cut may break down, each look at a byte may, and so may the
body of a function, which is called as it is (`Bytewise.evaluate`).

The scans do what the scans over characters do: they find the same operators (`located_splitSum?`,
`located_splitProduct?`), the same arguments (`splitArguments_eq`) and the same functions
(`callee?_eq`), and none of them breaks down.
-/

namespace Reckoner.Bytewise

open Expression (scanBack depthBefore depthAfter pieces)
open Text (byteSize byteAt bytes slice back counted depthBound)

/-! ## Scans -/

/-- Looks back from an offset for the last operator outside groups, unless it stands at the very
start or is exempt. -/
def lastOperator (operator? : Char → Option Operator) (exempt : Nat → Outcome Fault Bool)
    (text : List Char) : (offset : Nat) → (depth : Int) →
    Outcome Fault (Option ({ offset : Nat // offset < byteSize text } × Operator))
  | 0, _ => pure none
  | offset + 1, depth => do
    let ⟨byte, inside⟩ ← byteAt text offset
    let c := Char.ofUInt8 byte
    if c = ')' then
      lastOperator operator? exempt text offset (← counted (depth + 1))
    else if c = '(' then
      lastOperator operator? exempt text offset (← counted (depth - 1))
    else
      match operator? c with
      | some operator =>
        if depth = 0 ∧ 0 < offset then
          if ← exempt offset then lastOperator operator? exempt text offset depth
          else pure (some (⟨offset, inside⟩, operator))
        else lastOperator operator? exempt text offset depth
      | none => lastOperator operator? exempt text offset depth

/-- Whether the byte in front of an offset is the mark of an exponent. -/
def behindMark (text : List Char) (offset : Nat) : Outcome Fault Bool := do
  let ⟨byte, _⟩ ← byteAt text (← back offset 1)
  let c := Char.ofUInt8 byte
  pure (c = 'e' || c = 'E')

/-- The argument texts from the offset `start` on; the scan has come to `offset`, and `rest` are the
bytes that it has yet to see. -/
def splitFrom (inner : List Char) (start offset : Nat) (depth : Int) : (rest : List UInt8) →
    Outcome Fault (List { piece : List Char // byteSize piece ≤ byteSize inner })
  | [] => do
    let ⟨piece, _⟩ ← slice inner start (byteSize inner)
    pure [⟨piece, by omega⟩]
  | byte :: rest => do
    let c := Char.ofUInt8 byte
    if c = '(' then splitFrom inner start (offset + 1) (← counted (depth + 1)) rest
    else if c = ')' then splitFrom inner start (offset + 1) (← counted (depth - 1)) rest
    else if c = ',' ∧ depth = 0 then
      let ⟨piece, _⟩ ← slice inner start offset
      let pieces ← splitFrom inner (offset + 1) (offset + 1) depth rest
      pure (⟨piece, by omega⟩ :: pieces)
    else splitFrom inner start (offset + 1) depth rest

/-- The argument texts of a call: none if nothing stands between its parentheses. -/
def splitArguments (inner : List Char) :
    Outcome Fault (List { piece : List Char // byteSize piece ≤ byteSize inner }) :=
  if inner = [] then pure [] else splitFrom inner 0 0 0 (bytes inner)

theorem byteSize_of_called {name text rest : List Char}
    (h : (name ++ ['(']).isPrefixOf? text = some rest) : byteSize rest < byteSize text := by
  have := Char.utf8Size_pos '('
  rw [← List.isPrefixOf?_eq_some_iff_append_eq.1 h, Text.byteSize_append, Text.byteSize_append,
    Text.byteSize_cons]
  omega

/-- What follows a name and a parenthesis at the start of a text. -/
def afterName? (name text : List Char) :
    Option { rest : List Char // byteSize rest < byteSize text } :=
  match h : (name ++ ['(']).isPrefixOf? text with
  | none => none
  | some rest => some ⟨rest, byteSize_of_called h⟩

/-- The first function whose name and a parenthesis begin a text, with what follows them. -/
def callee? (functions : List Function) (text : List Char) :
    Option (Function × { rest : List Char // byteSize rest < byteSize text }) :=
  functions.findSome? fun f => (afterName? f.name.toList text).map fun rest => (f, rest)

/-! ## Evaluation -/

/-- Evaluates what stands in front of an operator, then what stands behind it. -/
def divideAt {text : List Char} (position : { offset : Nat // offset < byteSize text })
    (operator : Operator)
    (first second : { part : List Char // byteSize part < byteSize text } → Outcome Fault Float) :
    Outcome Fault Float := do
  let ⟨offset, _⟩ := position
  let ⟨left, _⟩ ← slice text 0 offset
  let x ← first ⟨left, by omega⟩
  let ⟨right, _⟩ ← slice text (offset + 1) (byteSize text)
  let y ← second ⟨right, by omega⟩
  pure (operator.apply x y)

mutual

/-- Divides at the last `+` or `-`, or else goes on to products. -/
def sum (functions : Repertoire) (text : List Char) : Outcome Fault Float := do
  match ← lastOperator Operator.additive? (behindMark text) text (byteSize text) 0 with
  | some (position, operator) =>
    divideAt position operator (fun ⟨left, _⟩ => sum functions left)
      (fun ⟨right, _⟩ => product functions right)
  | none => product functions text
termination_by (byteSize text, 4)

/-- Divides at the last `*` or `/`, or else goes on to signs. -/
def product (functions : Repertoire) (text : List Char) : Outcome Fault Float := do
  match ← lastOperator Operator.multiplicative? (fun _ => pure false) text (byteSize text) 0 with
  | some (position, operator) =>
    divideAt position operator (fun ⟨left, _⟩ => product functions left)
      (fun ⟨right, _⟩ => signed functions right)
  | none => signed functions text
termination_by (byteSize text, 3)

/-- Takes the signs off, and goes on to calls. -/
def signed (functions : Repertoire) (text : List Char) : Outcome Fault Float :=
  match text with
  | '+' :: rest =>
    have := Text.byteSize_lt_cons '+' rest
    signed functions rest
  | '-' :: rest => do
    have := Text.byteSize_lt_cons '-' rest
    let x ← signed functions rest
    pure (-x)
  | text => call functions text
termination_by (byteSize text, 2)

/-- Calls the first function that the text begins with, or else goes on to groups and literals. -/
def call (functions : Repertoire) (text : List Char) : Outcome Fault Float :=
  if text.getLast? = some ')' then
    match callee? functions.functions text with
    | some (f, ⟨rest, _⟩) => do
      let ⟨inner, _⟩ ← slice rest 0 (← back (byteSize rest) 1)
      let texts ← splitArguments inner
      let args ← texts.mapM fun ⟨arg, _⟩ => sum functions arg
      if f.arity.accepts args.length then f.body args
      else .failed (.arityMismatch f.name f.arity args.length)
    | none => primary functions text
  else primary functions text
termination_by (byteSize text, 1)

/-- Takes the parentheses off a group, or else reads a literal. -/
def primary (functions : Repertoire) (text : List Char) : Outcome Fault Float :=
  if 2 ≤ byteSize text ∧ text.head? = some '(' ∧ text.getLast? = some ')' then do
    let ⟨inner, _⟩ ← slice text 1 (← back (byteSize text) 1)
    sum functions inner
  else .ofExcept (Literal.parse text)
termination_by (byteSize text, 0)

end

/-- The outcome of a text under a set of functions. -/
def evaluate (functions : Repertoire) (text : String) : Outcome Fault Float :=
  let chars := Text.strip text.toList
  if Expression.lengthLimit < chars.length then
    .failed (.expressionTooLong chars.length Expression.lengthLimit)
  else sum functions chars

/-! ## Operators -/

variable {operator? : Char → Option Operator} {exempt : Nat → Outcome Fault Bool}

theorem operatorChar_ascii (o : Operator) : o.char.toNat < 128 := by
  cases o <;> decide

/-- No byte of a character that is nothing to the scan is anything to it. -/
theorem lastOperator_of_plain (hchar : ∀ c o, operator? c = some o → o.char = c)
    {front rest : List Char} {c : Char} (closing : c ≠ ')') (opening : c ≠ '(')
    (plain : operator? c = none) (depth : Int) {step : Nat} (within : step ≤ c.utf8Size) :
    lastOperator operator? exempt (front ++ c :: rest) (byteSize front + step) depth =
      lastOperator operator? exempt (front ++ c :: rest) (byteSize front) depth := by
  induction step with
  | zero => rfl
  | succ step ih =>
    obtain ⟨byte, member, inside, hbyte⟩ := Text.byteAt_of_char front rest within
    have notClosing : Char.ofUInt8 byte ≠ ')' :=
      mt (Text.ofUInt8_eq_iff member (by decide)).1 closing
    have notOpening : Char.ofUInt8 byte ≠ '(' :=
      mt (Text.ofUInt8_eq_iff member (by decide)).1 opening
    have noOperator : operator? (Char.ofUInt8 byte) = none := by
      cases found : operator? (Char.ofUInt8 byte) with
      | none => rfl
      | some o =>
        have same := (Text.ofUInt8_eq_iff member (operatorChar_ascii o)).1 (hchar _ _ found).symm
        rw [same, hchar _ _ found, found] at plain
        cases plain
    rw [← Nat.add_assoc, lastOperator, hbyte, Outcome.returned_bind]
    simp only [notClosing, notOpening, noOperator, if_false]
    exact ih (Nat.le_of_succ_le within)

theorem operatorChar_ne_parenthesis (o : Operator) : o.char ≠ ')' ∧ o.char ≠ '(' := by
  cases o <;> decide

/-- The scan goes back over one character. -/
theorem lastOperator_char (exempt : Nat → Outcome Fault Bool)
    (hchar : ∀ c o, operator? c = some o → o.char = c)
    {text front rest : List Char} {c : Char} (whole : front ++ c :: rest = text) {depth : Int}
    (small : depth.natAbs + 1 < depthBound) :
    ∃ inside, lastOperator operator? exempt text (byteSize (front ++ [c])) depth =
      match operator? c with
      | some operator =>
        if depth = 0 ∧ 0 < byteSize front then do
          if ← exempt (byteSize front) then
            lastOperator operator? exempt text (byteSize front) (depthBefore depth c)
          else pure (some (⟨byteSize front, inside⟩, operator))
        else lastOperator operator? exempt text (byteSize front) (depthBefore depth c)
      | none => lastOperator operator? exempt text (byteSize front) (depthBefore depth c) := by
  have inside : byteSize front < byteSize text := by
    have := c.utf8Size_pos
    rw [← whole, Text.byteSize_append, Text.byteSize_cons]
    omega
  refine ⟨inside, ?_⟩
  rw [Text.byteSize_concat]
  subst whole
  cases found : operator? c with
  | some o =>
    obtain rfl := hchar _ _ found
    obtain ⟨notClosing, notOpening⟩ := operatorChar_ne_parenthesis o
    have ascii := operatorChar_ascii o
    obtain ⟨byte, _, hc, hbyte⟩ := Text.byteAt_of_ascii front rest ascii
    have same : depthBefore depth o.char = depth := by simp [depthBefore, notClosing, notOpening]
    rw [Text.utf8Size_of_ascii ascii, lastOperator, hbyte, same, Outcome.returned_bind]
    simp only [hc, notClosing, notOpening, found, if_false]
  | none =>
    by_cases closing : c = ')'
    · subst closing
      obtain ⟨byte, _, hc, hbyte⟩ := Text.byteAt_of_ascii front rest (c := ')') (by decide)
      rw [Text.utf8Size_of_ascii (by decide), lastOperator, hbyte, Outcome.returned_bind]
      simp only [hc, if_true, depthBefore]
      rw [Text.counted_of_small (by omega), Outcome.returned_bind]
    · by_cases opening : c = '('
      · subst opening
        obtain ⟨byte, _, hc, hbyte⟩ := Text.byteAt_of_ascii front rest (c := '(') (by decide)
        rw [Text.utf8Size_of_ascii (by decide), lastOperator, hbyte, Outcome.returned_bind]
        simp only [hc, closing, if_true, if_false, depthBefore]
        rw [Text.counted_of_small (by omega), Outcome.returned_bind]
      · have same : depthBefore depth c = depth := by simp [depthBefore, closing, opening]
        rw [same]
        exact lastOperator_of_plain hchar closing opening found depth (Nat.le_refl _)

/-- The outcome of a scan over bytes that finds the division given, by its offset. -/
def Located (text : List Char) : Option (List Char × Operator × List Char) →
    Outcome Fault (Option ({ offset : Nat // offset < byteSize text } × Operator)) → Prop
  | none, outcome => outcome = .returned none
  | some (left, operator, _), outcome =>
    ∃ inside, outcome = .returned (some (⟨byteSize left, inside⟩, operator))

theorem natAbs_depthBefore_le (depth : Int) (c : Char) :
    (depthBefore depth c).natAbs ≤ depth.natAbs + 1 := by
  unfold depthBefore
  split
  · omega
  · split <;> omega

/-- The depth stays within the number of bytes that a scan has passed, so that it can be counted. -/
theorem bounded_of_passed {depth next : Int} {c : Char} {unseen : List Char}
    (small : depth.natAbs + byteSize (c :: unseen) < depthBound)
    (step : next.natAbs ≤ depth.natAbs + 1) :
    depth.natAbs + 1 < depthBound ∧ next.natAbs + byteSize unseen < depthBound := by
  have := c.utf8Size_pos
  rw [Text.byteSize_cons] at small
  omega

theorem located_scanBack (hchar : ∀ c o, operator? c = some o → o.char = c)
    {allowed : Char → Bool} {text : List Char}
    (hexempt : ∀ left before rest, left ++ before :: rest = text →
      exempt (byteSize (left ++ [before])) = .returned (!allowed before))
    {depth : Int} {left right : List Char} (whole : left.reverse ++ right = text)
    (small : depth.natAbs + byteSize left < depthBound) :
    Located text (scanBack operator? allowed depth right left)
      (lastOperator operator? exempt text (byteSize left.reverse) depth) := by
  fun_induction scanBack operator? allowed depth right left with
  | case1 => rfl
  | case2 depth right c =>
    have whole : [] ++ c :: right = text := whole
    obtain ⟨bounded, -⟩ := bounded_of_passed small (natAbs_depthBefore_le depth c)
    obtain ⟨inside, step⟩ := lastOperator_char exempt hchar whole bounded
    rw [List.reverse_singleton]
    refine step.trans ?_
    cases operator? c with
    | none => rfl
    | some o => exact if_neg fun both => Nat.lt_irrefl 0 both.2
  | case3 depth right c before left o ho cond =>
    rw [List.reverse_cons (a := c), List.append_assoc] at whole
    obtain ⟨bounded, -⟩ := bounded_of_passed small (natAbs_depthBefore_le depth c)
    obtain ⟨inside, step⟩ := lastOperator_char exempt hchar whole bounded
    have positive : 0 < byteSize (before :: left).reverse := Text.byteSize_pos (by simp)
    have notExempt := hexempt left.reverse before (c :: right) (by simpa using whole)
    rw [← List.reverse_cons, cond.2] at notExempt
    refine ⟨inside, ?_⟩
    rw [List.reverse_cons (a := c), step, ho]
    dsimp only
    rw [if_pos ⟨cond.1, positive⟩, notExempt]
    rfl
  | case4 depth right c before left o ho cond ih =>
    rw [List.reverse_cons (a := c), List.append_assoc] at whole
    obtain ⟨bounded, later⟩ := bounded_of_passed small (natAbs_depthBefore_le depth c)
    obtain ⟨inside, step⟩ := lastOperator_char exempt hchar whole bounded
    have onward := ih whole later
    have notExempt := hexempt left.reverse before (c :: right) (by simpa using whole)
    rw [← List.reverse_cons] at notExempt
    rw [List.reverse_cons (a := c), step, ho]
    dsimp only
    split
    · next divides =>
      have excluded : allowed before = false := by simpa [divides.1] using cond
      rw [notExempt, excluded]
      exact onward
    · exact onward
  | case5 depth right c before left ho ih =>
    rw [List.reverse_cons (a := c), List.append_assoc] at whole
    obtain ⟨bounded, later⟩ := bounded_of_passed small (natAbs_depthBefore_le depth c)
    obtain ⟨inside, step⟩ := lastOperator_char exempt hchar whole bounded
    rw [List.reverse_cons (a := c), step, ho]
    exact ih whole later

theorem located_splitLast? (hchar : ∀ c o, operator? c = some o → o.char = c)
    {allowed : Char → Bool} {text : List Char}
    (hexempt : ∀ left before rest, left ++ before :: rest = text →
      exempt (byteSize (left ++ [before])) = .returned (!allowed before))
    (small : byteSize text < depthBound) :
    Located text (Expression.splitLast? operator? allowed text)
      (lastOperator operator? exempt text (byteSize text) 0) := by
  have whole : text.reverse.reverse ++ [] = text := by simp
  have unpassed : (0 : Int).natAbs + byteSize text.reverse < depthBound := by simpa using small
  have located := located_scanBack hchar hexempt whole unpassed
  rwa [List.reverse_reverse] at located

theorem located_splitSum? {text : List Char} (small : byteSize text < depthBound) :
    Located text (Expression.splitSum? text)
      (lastOperator Operator.additive? (behindMark text) text (byteSize text) 0) := by
  refine located_splitLast? (fun _ _ => Operator.char_of_additive?) ?_ small
  intro left before rest whole
  -- In front of the offset stands the last byte of `before`.
  have last : before.utf8Size - 1 < before.utf8Size := Nat.sub_one_lt_of_lt before.utf8Size_pos
  obtain ⟨byte, member, inside, hbyte⟩ := Text.byteAt_of_char left rest last
  have position : byteSize left + (before.utf8Size - 1) + 1 = byteSize (left ++ [before]) := by
    have := before.utf8Size_pos
    rw [Text.byteSize_concat]
    omega
  subst whole
  rw [behindMark, Text.back_of_add position, Outcome.returned_bind, hbyte, Outcome.returned_bind]
  simp only [Text.ofUInt8_eq_iff member (d := 'e') (by decide),
    Text.ofUInt8_eq_iff member (d := 'E') (by decide), Expression.notExponentMark, Bool.not_not]
  rfl

theorem located_splitProduct? {text : List Char} (small : byteSize text < depthBound) :
    Located text (Expression.splitProduct? text)
      (lastOperator Operator.multiplicative? (fun _ => pure false) text (byteSize text) 0) :=
  located_splitLast? (fun _ _ => Operator.char_of_multiplicative?) (fun _ _ _ _ => rfl) small

/-! ## Arguments -/

/-- The bytes of a character that is nothing to the scan are nothing to it. -/
theorem splitFrom_of_plain {inner : List Char} {start offset : Nat} {depth : Int}
    {block : List UInt8} (rest : List UInt8)
    (plain : ∀ byte ∈ block, Char.ofUInt8 byte ≠ '(' ∧ Char.ofUInt8 byte ≠ ')' ∧
      ¬ (Char.ofUInt8 byte = ',' ∧ depth = 0)) :
    splitFrom inner start offset depth (block ++ rest) =
      splitFrom inner start (offset + block.length) depth rest := by
  induction block generalizing offset with
  | nil => rfl
  | cons byte block ih =>
    obtain ⟨opening, closing, comma⟩ := plain byte (List.mem_cons_self ..)
    rw [List.cons_append, splitFrom]
    simp only [opening, closing, comma, if_false]
    rw [ih fun other member => plain other (List.mem_cons_of_mem _ member), List.length_cons,
      Nat.add_assoc, Nat.add_comm 1]

theorem bytes_of_ascii {c : Char} (ascii : c.toNat < 128) :
    ∃ byte, String.utf8EncodeChar c = [byte] ∧ Char.ofUInt8 byte = c := by
  have encoded := String.utf8EncodeChar_eq_singleton (Text.utf8Size_of_ascii ascii)
  exact ⟨_, encoded, (Text.ofUInt8_eq_iff (by simp [encoded]) ascii).2 rfl⟩

/-- The scan passes a character that ends no argument. -/
theorem splitFrom_char {inner : List Char} {start offset : Nat} {depth : Int} {c : Char}
    (rest : List UInt8) (small : depth.natAbs + 1 < depthBound) (inside : ¬ (c = ',' ∧ depth = 0)) :
    splitFrom inner start offset depth (String.utf8EncodeChar c ++ rest) =
      splitFrom inner start (offset + c.utf8Size) (depthAfter depth c) rest := by
  by_cases opening : c = '('
  · subst opening
    obtain ⟨byte, encoded, hc⟩ := bytes_of_ascii (c := '(') (by decide)
    rw [encoded, List.singleton_append, splitFrom, hc, Text.utf8Size_of_ascii (by decide)]
    simp only [if_true, depthAfter]
    rw [Text.counted_of_small (by omega), Outcome.returned_bind]
  · by_cases closing : c = ')'
    · subst closing
      obtain ⟨byte, encoded, hc⟩ := bytes_of_ascii (c := ')') (by decide)
      rw [encoded, List.singleton_append, splitFrom, hc, Text.utf8Size_of_ascii (by decide)]
      simp only [opening, if_true, if_false, depthAfter]
      rw [Text.counted_of_small (by omega), Outcome.returned_bind]
    · have same : depthAfter depth c = depth := by simp [depthAfter, closing, opening]
      rw [same, ← String.length_utf8EncodeChar]
      refine splitFrom_of_plain rest fun byte member => ?_
      rw [ne_eq, ne_eq, Text.ofUInt8_eq_iff member (by decide),
        Text.ofUInt8_eq_iff member (by decide), Text.ofUInt8_eq_iff member (by decide)]
      exact ⟨opening, closing, inside⟩

theorem natAbs_depthAfter_le (depth : Int) (c : Char) :
    (depthAfter depth c).natAbs ≤ depth.natAbs + 1 := by
  unfold depthAfter
  split
  · omega
  · split <;> omega

theorem modifyHead_nothing (texts : List (List Char)) : texts.modifyHead ([] ++ ·) = texts := by
  cases texts <;> rfl

/-- The pieces of what the scan has yet to see, of which the first begins with what it has seen
since the last comma. -/
theorem splitFrom_eq {inner passed seen rest : List Char} (whole : passed ++ seen ++ rest = inner)
    (depth : Int) (small : depth.natAbs + byteSize rest < depthBound) :
    ∃ texts, splitFrom inner (byteSize passed) (byteSize (passed ++ seen)) depth (bytes rest) =
        .returned texts ∧
      texts.map Subtype.val = (pieces depth rest).modifyHead (seen ++ ·) := by
  induction rest generalizing passed seen depth with
  | nil =>
    have stops : byteSize passed + byteSize seen = byteSize inner := by
      rw [← whole, List.append_nil, Text.byteSize_append]
    obtain ⟨sized, hslice⟩ := Text.slice_of_parts whole rfl stops
    refine ⟨[⟨seen, by omega⟩], ?_, by simp [pieces]⟩
    rw [Text.bytes_nil, splitFrom, hslice]
    rfl
  | cons c rest ih =>
    obtain ⟨bounded, later⟩ := bounded_of_passed small (natAbs_depthAfter_le depth c)
    by_cases comma : c = ',' ∧ depth = 0
    · -- The piece ends here, and of the next one nothing has been seen yet.
      obtain ⟨rfl, rfl⟩ := comma
      obtain ⟨byte, encoded, hc⟩ := bytes_of_ascii (c := ',') (by decide)
      have behind : byteSize (passed ++ seen ++ [',']) = byteSize (passed ++ seen) + 1 :=
        Text.byteSize_concat_ascii _ (by decide)
      have wholeBehind : passed ++ seen ++ [','] ++ [] ++ rest = inner := by simpa using whole
      obtain ⟨texts, hsplit, hpieces⟩ := ih wholeBehind 0 later
      rw [List.append_nil, behind] at hsplit
      obtain ⟨sized, hslice⟩ := Text.slice_of_parts whole rfl (Text.byteSize_append _ _).symm
      refine ⟨⟨seen, by omega⟩ :: texts, ?_, ?_⟩
      · rw [Text.bytes_cons, encoded, List.singleton_append, splitFrom, hc]
        simp only [if_true, and_self, hslice, hsplit, Outcome.returned_bind]
        rfl
      · rw [List.map_cons, hpieces, modifyHead_nothing, pieces, if_pos ⟨rfl, rfl⟩]
        simp
    · -- The character belongs to the piece.
      have wholeBehind : passed ++ (seen ++ [c]) ++ rest = inner := by simpa using whole
      obtain ⟨texts, hsplit, hpieces⟩ := ih wholeBehind (depthAfter depth c) later
      refine ⟨texts, ?_, ?_⟩
      · rw [Text.bytes_cons, splitFrom_char (bytes rest) bounded comma, ← hsplit]
        rw [← List.append_assoc, Text.byteSize_concat]
      · rw [hpieces, pieces, if_neg comma]
        obtain ⟨first, more, hmore⟩ :=
          List.exists_cons_of_ne_nil (Expression.pieces_ne_nil (depthAfter depth c) rest)
        simp [hmore, Text.extendFirst]

theorem splitArguments_eq {inner : List Char} (small : byteSize inner < depthBound) :
    ∃ texts, splitArguments inner = .returned texts ∧
      texts.map Subtype.val = Expression.splitArguments inner := by
  unfold splitArguments Expression.splitArguments
  split
  · exact ⟨[], rfl, rfl⟩
  · have whole : [] ++ [] ++ inner = inner := rfl
    obtain ⟨texts, hsplit, hpieces⟩ := splitFrom_eq whole 0 (by simpa using small)
    refine ⟨texts, hsplit, ?_⟩
    rw [hpieces, modifyHead_nothing]

/-! ## Calls -/

theorem afterName?_eq_some_iff {name text : List Char}
    {rest : { rest : List Char // byteSize rest < byteSize text }} :
    afterName? name text = some rest ↔ name ++ '(' :: rest = text := by
  have singleton : name ++ '(' :: rest = name ++ ['('] ++ rest := by simp
  rw [singleton, ← List.isPrefixOf?_eq_some_iff_append_eq]
  unfold afterName?
  split
  · next missing => simp [missing]
  · next other found => simp [found, Subtype.ext_iff]

theorem callee?_of_not_mem {functions : List Function} {text : List Char} (h : '(' ∉ text) :
    callee? functions text = none := by
  refine List.findSome?_eq_none_iff.2 fun f _ => ?_
  cases found : afterName? f.name.toList text with
  | none => rfl
  | some rest =>
    rw [← afterName?_eq_some_iff.1 found] at h
    simp at h

/-- In front of its first parenthesis stands the whole name of the function that a text calls. -/
theorem afterName?_eq {called name rest : List Char} (hcalled : '(' ∉ called) (hname : '(' ∉ name)
    (shorter : byteSize rest < byteSize (name ++ '(' :: rest)) :
    afterName? called (name ++ '(' :: rest) =
      if called = name then some ⟨rest, shorter⟩ else none := by
  split
  · next same => exact afterName?_eq_some_iff.2 (by rw [same])
  · next different =>
    cases found : afterName? called (name ++ '(' :: rest) with
    | none => rfl
    | some other =>
      -- Two texts without a parenthesis that both stand in front of the first one are the same.
      obtain ⟨same, -⟩ | ⟨mid, hmid, -⟩ | ⟨mid, hmid, -⟩ :=
        Text.append_cons_cases (afterName?_eq_some_iff.1 found)
      · exact absurd same different
      · simp [hmid] at hname
      · simp [hmid] at hcalled

theorem callee?_eq {functions : List Function} (plain : ∀ f ∈ functions, '(' ∉ f.name.toList)
    {name : List Char} (hname : '(' ∉ name) (rest : List Char) : ∃ shorter,
    callee? functions (name ++ '(' :: rest) =
      (functions.find? fun f => f.name = String.ofList name).map fun f => (f, ⟨rest, shorter⟩) := by
  have shorter : byteSize rest < byteSize (name ++ '(' :: rest) := by
    have := Text.byteSize_lt_cons '(' rest
    rw [Text.byteSize_append]
    omega
  refine ⟨shorter, ?_⟩
  unfold callee?
  induction functions with
  | nil => rfl
  | cons f functions ih =>
    have later := ih fun g member => plain g (List.mem_cons_of_mem _ member)
    rw [List.findSome?_cons, List.find?_cons, later,
      afterName?_eq (plain f (List.mem_cons_self ..)) hname shorter]
    by_cases same : f.name.toList = name
    · simp [← same]
    · have different : f.name ≠ String.ofList name := by
        intro h
        rw [h, String.toList_ofList] at same
        exact same rfl
      simp [same, different]

end Reckoner.Bytewise
