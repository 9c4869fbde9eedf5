import Reckoner.Json.Record
import Reckoner.Proofs.Documents

/-! # Numbers that are read

Every number of a document was read from a lexeme of its text.  So what holds of all the numbers
that a reading can give holds of all the numbers of a document (`meets_of_readBy?`) and of its value
(`meets_of_toJson?`).  The numbers that `ofLexeme?` gives can all be written again
(`representable_of_ofLexeme?`).
-/

namespace Reckoner.Json

/-- What every step keeps, a run keeps.  The lexer and the builder of documents are both such runs. -/
theorem keeps_of_foldlM {σ α : Type} {keeps : σ → Prop} {step : σ → α → Option σ} {items : List α}
    (each : ∀ item ∈ items, ∀ state next, keeps state → step state item = some next → keeps next)
    {state last : σ} (start : keeps state) (run : items.foldlM step state = some last) :
    keeps last := by
  induction items generalizing state with
  | nil =>
    obtain rfl := Option.some.inj run
    exact start
  | cons item items ih =>
    obtain ⟨first, rest⟩ := List.forall_mem_cons.1 each
    rw [List.foldlM_cons] at run
    obtain ⟨next, stepped, run⟩ := Option.bind_eq_some_iff.1 run
    exact ih rest (first state next start stepped) run

/-! ## Lexemes -/

namespace Number

theorem gather_fits {significand : Nat} (fits : significand < significandBound)
    (digits : List Char) : (gather significand digits).1 < significandBound := by
  induction digits generalizing significand with
  | nil => exact fits
  | cons c digits ih =>
    rw [gather]
    split
    · next room => exact ih room
    · exact fits

theorem representable_of_ofMagnitude? {negative : Bool} {bits : Nat} {n : Number}
    (found : ofMagnitude? negative bits = some n) : n.Representable := by
  unfold ofMagnitude? at found
  split at found
  · next finite =>
    obtain rfl := Option.some.inj found
    exact .real (Binary64.view_toFloat finite negative)
  · cases found

theorem representable_of_ofWhole? {negative : Bool} {digits : List Char} {n : Number}
    (found : ofWhole? negative digits = some n) : n.Representable := by
  have fits := gather_fits (show 0 < significandBound by decide) digits
  unfold ofWhole? at found
  split at found
  · next value gathered =>
    rw [gathered] at fits
    have bound := negativeBound_lt
    split at found
    · obtain rfl := Option.some.inj found
      exact .integer ⟨by omega, by omega⟩
    · split at found
      · next range =>
        obtain rfl := Option.some.inj found
        exact .integer ⟨by omega, by omega⟩
      · exact representable_of_ofMagnitude? found
  · exact representable_of_ofMagnitude? found

theorem representable_of_ofUnsigned? {negative : Bool} {text : List Char} {n : Number}
    (read : ofUnsigned? negative text = some (some n)) : n.Representable := by
  unfold ofUnsigned? at read
  dsimp only at read
  split at read
  · split at read
    · exact representable_of_ofWhole? (Option.some.inj read)
    · obtain ⟨e, -, found⟩ := Option.map_eq_some_iff.1 read
      exact representable_of_ofMagnitude? found
  · cases read

/-- What is read from a lexeme has a text of its own. -/
theorem representable_of_ofLexeme? {lexeme : List Char} {n : Number}
    (read : ofLexeme? lexeme = some (some n)) : n.Representable := by
  unfold ofLexeme? at read
  split at read
  · exact representable_of_ofUnsigned? read
  · exact representable_of_ofUnsigned? read

end Number

/-! ## Tokens -/

variable {p : Number → Prop} {numbers : Number.Reader}

/-- If the token is a number, it meets the condition. -/
def Token.Meets (p : Number → Prop) : Token → Prop
  | .leaf (.number (some n)) => p n
  | _ => True

namespace Lexer

theorem meets_flush (gives : ∀ lexeme n, numbers lexeme = some (some n) → p n)
    {tokens next : List Token} {lexeme : List Char} (meets : ∀ token ∈ tokens, token.Meets p)
    (flushed : flush numbers tokens lexeme = some next) : ∀ token ∈ next, token.Meets p := by
  unfold flush at flushed
  split at flushed
  · obtain rfl := Option.some.inj flushed
    exact meets
  · obtain ⟨leaf, found, rfl⟩ := Option.map_eq_some_iff.1 flushed
    refine List.forall_mem_cons.2 ⟨?_, meets⟩
    unfold Leaf.ofLexeme? at found
    split at found
    · obtain rfl := Option.some.inj found
      exact True.intro
    · split at found
      · obtain rfl := Option.some.inj found
        exact True.intro
      · split at found
        · obtain rfl := Option.some.inj found
          exact True.intro
        · obtain ⟨value, read, rfl⟩ := Option.map_eq_some_iff.1 found
          cases value with
          | none => exact True.intro
          | some n => exact gives _ _ read

theorem meets_mark {c : Char} {mark : Token} (isMark : Token.ofMark? c = some mark) :
    mark.Meets p := by
  unfold Token.ofMark? at isMark
  split at isMark <;> cases isMark <;> exact True.intro

theorem meets_step (gives : ∀ lexeme n, numbers lexeme = some (some n) → p n)
    {state next : State} {c : Char} (meets : ∀ token ∈ state.tokens, token.Meets p)
    (stepped : step numbers state c = some next) : ∀ token ∈ next.tokens, token.Meets p := by
  obtain ⟨tokens, mode⟩ := state
  cases mode with
  | plain lexeme =>
    simp only [step, stepPlain] at stepped
    split at stepped
    · obtain ⟨flushed, found, rfl⟩ := Option.map_eq_some_iff.1 stepped
      exact meets_flush gives meets found
    · split at stepped
      · obtain ⟨flushed, found, rfl⟩ := Option.map_eq_some_iff.1 stepped
        exact meets_flush gives meets found
      · split at stepped
        · next mark isMark =>
          obtain ⟨flushed, found, rfl⟩ := Option.map_eq_some_iff.1 stepped
          exact List.forall_mem_cons.2 ⟨meets_mark isMark, meets_flush gives meets found⟩
        · obtain rfl := Option.some.inj stepped
          exact meets
  | quoted pieces =>
    simp only [step, stepQuoted] at stepped
    split at stepped
    · obtain rfl := Option.some.inj stepped
      exact List.forall_mem_cons.2 ⟨True.intro, meets⟩
    · split at stepped
      · obtain rfl := Option.some.inj stepped
        exact meets
      · split at stepped
        · cases stepped
        · obtain rfl := Option.some.inj stepped
          exact meets
  | escaped pieces =>
    simp only [step] at stepped
    split at stepped
    · obtain rfl := Option.some.inj stepped
      exact meets
    · obtain ⟨c, -, rfl⟩ := Option.map_eq_some_iff.1 stepped
      exact meets
  | unit pieces value missing =>
    simp only [step] at stepped
    obtain ⟨digit, -, rfl⟩ := Option.map_eq_some_iff.1 stepped
    split <;> exact meets

theorem meets_run (gives : ∀ lexeme n, numbers lexeme = some (some n) → p n) {text : List Char}
    {state last : State} (meets : ∀ token ∈ state.tokens, token.Meets p)
    (run : text.foldlM (step numbers) state = some last) :
    ∀ token ∈ last.tokens, token.Meets p := by
  have each : ∀ c ∈ text, ∀ state next : State, (∀ token ∈ state.tokens, token.Meets p) →
      step numbers state c = some next → ∀ token ∈ next.tokens, token.Meets p :=
    fun _ _ _ _ => meets_step gives
  exact keeps_of_foldlM each meets run

end Lexer

theorem meets_of_tokens? (gives : ∀ lexeme n, numbers lexeme = some (some n) → p n)
    {text : List Char} {tokens : List Token} (found : tokens? numbers text = some tokens) :
    ∀ token ∈ tokens, token.Meets p := by
  obtain ⟨last, run, finished⟩ := Option.bind_eq_some_iff.1 found
  have meets := Lexer.meets_run gives (by simp [Lexer.start]) run
  unfold Lexer.State.finish? at finished
  split at finished
  · obtain ⟨flushed, closed, rfl⟩ := Option.map_eq_some_iff.1 finished
    intro token member
    exact Lexer.meets_flush gives meets closed token (List.mem_reverse.1 member)
  · cases finished

/-! ## Documents -/

namespace Document

/-- All numbers of the document meet the condition. -/
inductive Meets (p : Number → Prop) : Document → Prop
  | leaf {value : Leaf} (token : (Token.leaf value).Meets p) : Meets p (.leaf value)
  | array {items : List Document} (all : ∀ item ∈ items, Meets p item) : Meets p (.array items)
  | object {members : List (Option String × Document)}
      (all : ∀ member ∈ members, Meets p member.2) : Meets p (.object members)

/-- The numbers in an open container meet the condition. -/
def Frame.Meets (p : Number → Prop) : Frame → Prop
  | .items done => ∀ item ∈ done, item.Meets p
  | .members done _ => ∀ member ∈ done, member.2.Meets p

/-- The numbers that have been read so far meet the condition. -/
def State.Meets (p : Number → Prop) : State → Prop
  | .value stack | .firstItem stack | .firstKey stack => ∀ frame ∈ stack, frame.Meets p
  | .key stack done | .colon stack done _ =>
    (∀ frame ∈ stack, frame.Meets p) ∧ ∀ member ∈ done, member.2.Meets p
  | .complete stack document => (∀ frame ∈ stack, frame.Meets p) ∧ document.Meets p

theorem meets_enter {stack : List Frame} {token : Token} {next : State}
    (meets : ∀ frame ∈ stack, frame.Meets p) (known : token.Meets p)
    (entered : enter stack token = some next) : next.Meets p := by
  unfold enter at entered
  split at entered
  · obtain rfl := Option.some.inj entered
    exact ⟨meets, .leaf known⟩
  · obtain rfl := Option.some.inj entered
    exact meets
  · obtain rfl := Option.some.inj entered
    exact meets
  · cases entered

/-- A container is collected from its end. -/
theorem forall_mem_reversed {α : Type} {holds : α → Prop} {last : α} {earlier : List α}
    (here : holds last) (before : ∀ a ∈ earlier, holds a) :
    ∀ a ∈ (last :: earlier).reverse, holds a := by
  intro a member
  exact List.forall_mem_cons.2 ⟨here, before⟩ a (List.mem_reverse.1 member)

theorem meets_step {state next : State} {token : Token} (meets : state.Meets p)
    (known : token.Meets p) (stepped : step state token = some next) : next.Meets p := by
  unfold step at stepped
  split at stepped
  · exact meets_enter meets known stepped
  · obtain rfl := Option.some.inj stepped
    exact ⟨meets, .array (by simp)⟩
  · exact meets_enter (List.forall_mem_cons.2 ⟨by simp [Frame.Meets], meets⟩) known stepped
  · obtain rfl := Option.some.inj stepped
    exact ⟨meets, .object (by simp)⟩
  · obtain rfl := Option.some.inj stepped
    exact ⟨meets, by simp⟩
  · obtain rfl := Option.some.inj stepped
    exact meets
  · obtain rfl := Option.some.inj stepped
    exact List.forall_mem_cons.2 ⟨meets.2, meets.1⟩
  · obtain rfl := Option.some.inj stepped
    obtain ⟨earlier, rest⟩ := List.forall_mem_cons.1 meets.1
    exact List.forall_mem_cons.2 ⟨List.forall_mem_cons.2 ⟨meets.2, earlier⟩, rest⟩
  · obtain rfl := Option.some.inj stepped
    obtain ⟨earlier, rest⟩ := List.forall_mem_cons.1 meets.1
    exact ⟨rest, .array (forall_mem_reversed meets.2 earlier)⟩
  · obtain rfl := Option.some.inj stepped
    obtain ⟨earlier, rest⟩ := List.forall_mem_cons.1 meets.1
    exact ⟨rest, List.forall_mem_cons.2 ⟨meets.2, earlier⟩⟩
  · obtain rfl := Option.some.inj stepped
    obtain ⟨earlier, rest⟩ := List.forall_mem_cons.1 meets.1
    exact ⟨rest, .object (forall_mem_reversed meets.2 earlier)⟩
  · cases stepped

theorem meets_run {tokens : List Token} {state last : State} (meets : state.Meets p)
    (known : ∀ token ∈ tokens, token.Meets p) (run : tokens.foldlM step state = some last) :
    last.Meets p := by
  apply keeps_of_foldlM _ meets run
  intro token member state next meets stepped
  exact meets_step meets (known token member) stepped

/-- What holds of all numbers that a reading gives holds of the numbers of a document. -/
theorem meets_of_readBy? (gives : ∀ lexeme n, numbers lexeme = some (some n) → p n)
    {text : List Char} {document : Document} (read : readBy? numbers text = some document) :
    document.Meets p := by
  obtain ⟨tokens, found, built⟩ := Option.bind_eq_some_iff.1 read
  obtain ⟨last, run, finished⟩ := Option.bind_eq_some_iff.1 built
  have start : (State.value []).Meets p := by simp [State.Meets]
  have meets := meets_run start (meets_of_tokens? gives found) run
  unfold State.finish? at finished
  split at finished
  · obtain rfl := Option.some.inj finished
    exact meets.2
  · cases finished

theorem Meets.of_fields? {names : List String} {least : Nat} {document : Document}
    {given : List (Option Document)} (meets : document.Meets p)
    (fields : document.fields? names least = some given) :
    ∀ field, some field ∈ given → field.Meets p := by
  intro field member
  cases meets with
  | leaf token => cases fields
  | array all =>
    rw [fields?] at fields
    split at fields
    · obtain rfl := Option.some.inj fields
      obtain member | member := List.mem_append.1 member
      · obtain ⟨item, inside, same⟩ := List.mem_map.1 member
        obtain rfl := Option.some.inj same
        exact all item inside
      · cases List.eq_of_mem_replicate member
    · cases fields
  | object all =>
    rw [fields?] at fields
    split at fields
    · obtain rfl := Option.some.inj fields
      obtain ⟨name, -, found⟩ := List.mem_map.1 member
      obtain ⟨held, first, rfl⟩ := Option.map_eq_some_iff.1 found
      exact all held (List.mem_of_find?_eq_some first)
    · cases fields

end Document

/-! ## Values -/

theorem mem_heldByMembers_addMember {n : Number} {key : String} {value : Json}
    {members : List (String × Json)} (held : n ∈ heldByMembers (addMember key value members)) :
    n ∈ value.heldNumbers ∨ n ∈ heldByMembers members := by
  induction members with
  | nil => simpa [addMember, heldByMembers] using held
  | cons member members ih =>
    obtain ⟨other, kept⟩ := member
    rw [addMember] at held
    split at held
    · exact .inr held
    · split at held
      · exact List.mem_append.1 held
      · obtain here | later := List.mem_append.1 held
        · exact .inr (List.mem_append_left _ here)
        · obtain new | old := ih later
          · exact .inl new
          · exact .inr (List.mem_append_right _ old)

theorem mem_heldNumbers_ofMembers {n : Number} {members : List (String × Json)}
    (held : n ∈ (ofMembers members).heldNumbers) : n ∈ heldByMembers members := by
  rw [ofMembers, heldNumbers] at held
  induction members with
  | nil => exact held
  | cons member members ih =>
    obtain new | old := mem_heldByMembers_addMember held
    · exact List.mem_append_left _ new
    · exact List.mem_append_right _ (ih old)

namespace Document

theorem meets_of_allToJson? {items : List Document} {room : Nat} {values : List Json}
    (each : ∀ item ∈ items, ∀ value, item.toJson? room = some value → ∀ n ∈ value.heldNumbers, p n)
    (valued : allToJson? room items = some values) : ∀ n ∈ heldByAll values, p n := by
  induction items generalizing values with
  | nil =>
    obtain rfl := Option.some.inj valued
    simp [heldByAll]
  | cons item items ih =>
    obtain ⟨first, rest⟩ := List.forall_mem_cons.1 each
    rw [allToJson?] at valued
    split at valued
    · next value values here later =>
      obtain rfl := Option.some.inj valued
      exact List.forall_mem_append.2 ⟨first value here, ih rest later⟩
    · cases valued

theorem meets_of_membersToJson? {members : List (Option String × Document)} {room : Nat}
    {values : List (String × Json)}
    (each : ∀ member ∈ members, ∀ value, member.2.toJson? room = some value →
      ∀ n ∈ value.heldNumbers, p n)
    (valued : membersToJson? room members = some values) : ∀ n ∈ heldByMembers values, p n := by
  induction members generalizing values with
  | nil =>
    obtain rfl := Option.some.inj valued
    simp [heldByMembers]
  | cons member members ih =>
    obtain ⟨key, document⟩ := member
    obtain ⟨first, rest⟩ := List.forall_mem_cons.1 each
    unfold membersToJson? at valued
    split at valued
    · next name value values here later =>
      obtain rfl := Option.some.inj valued
      exact List.forall_mem_append.2 ⟨first value here, ih rest later⟩
    · cases valued

/-- The value of a document holds no other numbers. -/
theorem meets_of_toJson? {document : Document} (meets : document.Meets p) {room : Nat}
    {value : Json} (valued : document.toJson? room = some value) :
    ∀ n ∈ value.heldNumbers, p n := by
  induction meets generalizing room value with
  | @leaf leaf token =>
    rw [toJson?] at valued
    cases leaf with
    | null | truth held =>
      obtain rfl := Option.some.inj valued
      simp [heldNumbers]
    | number held =>
      obtain ⟨n, rfl, rfl⟩ := Option.map_eq_some_iff.1 valued
      intro m same
      rw [List.mem_singleton.1 same]
      exact token
    | text held =>
      obtain ⟨text, rfl, rfl⟩ := Option.map_eq_some_iff.1 valued
      simp [heldNumbers]
  | array all ih =>
    rw [toJson?] at valued
    split at valued
    · cases valued
    · obtain ⟨values, found, rfl⟩ := Option.map_eq_some_iff.1 valued
      exact meets_of_allToJson? (fun item member value => ih item member) found
  | object all ih =>
    rw [toJson?] at valued
    split at valued
    · cases valued
    · obtain ⟨values, found, rfl⟩ := Option.map_eq_some_iff.1 valued
      intro n held
      exact meets_of_membersToJson? (fun member inside value => ih member inside) found n
        (mem_heldNumbers_ofMembers held)

end Document

end Reckoner.Json
