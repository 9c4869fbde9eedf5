import Reckoner.Json.Document
import Reckoner.Proofs.JsonNumbers

/-! # Written documents

The text of a value is one line (`newline_not_mem_chars`) and is read as the document of that value
(`readBy?_chars`), as long as the reading of numbers gives back those that the value holds.  Strings
need no such proviso.
-/

namespace Reckoner.Json

/-! ## One line -/

theorem printable_mark {c : Char} {mark : Token} (isMark : Token.ofMark? c = some mark) :
    Printable c := by
  unfold Token.ofMark? at isMark
  unfold Printable
  split at isMark
  all_goals first | decide | cases isMark

theorem printable_joinCommas {texts : List (List Char)}
    (printable : ∀ text ∈ texts, ∀ c ∈ text, Printable c) :
    ∀ c ∈ Text.joinCommas texts, Printable c := by
  induction texts with
  | nil => simp [Text.joinCommas]
  | cons text texts ih =>
    obtain ⟨first, rest⟩ := List.forall_mem_cons.1 printable
    cases texts with
    | nil => exact first
    | cons next texts =>
      have comma : Printable ',' := printable_mark rfl
      exact List.forall_mem_append.2 ⟨first, List.forall_mem_cons.2 ⟨comma, ih rest⟩⟩

theorem printable_enclosed {left right : Char} {text : List Char} (first : Printable left)
    (inner : ∀ c ∈ text, Printable c) (last : Printable right) :
    ∀ c ∈ left :: (text ++ [right]), Printable c :=
  List.forall_mem_cons.2 ⟨first, List.forall_mem_append.2 ⟨inner, by simpa using last⟩⟩

mutual

/-- No value is written with a control character. -/
theorem printable_chars (json : Json) : ∀ c ∈ json.chars, Printable c := by
  cases json with
  | null => exact fun c hc => (inLexeme_of_word (by simp) c hc).printable
  | truth value =>
    cases value <;> exact fun c hc => (inLexeme_of_word (by simp) c hc).printable
  | number n => exact fun c hc => (n.inLexeme_chars c hc).printable
  | text s => exact fun c hc => printable_quote hc
  | array items =>
    exact printable_enclosed (printable_mark rfl)
      (printable_joinCommas (printable_charsOfAll items)) (printable_mark rfl)
  | object members =>
    exact printable_enclosed (printable_mark rfl)
      (printable_joinCommas (printable_charsOfMembers members)) (printable_mark rfl)

theorem printable_charsOfAll (items : List Json) :
    ∀ text ∈ charsOfAll items, ∀ c ∈ text, Printable c := by
  cases items with
  | nil => simp [charsOfAll]
  | cons item items =>
    rw [charsOfAll]
    exact List.forall_mem_cons.2 ⟨printable_chars item, printable_charsOfAll items⟩

theorem printable_charsOfMembers (members : List (String × Json)) :
    ∀ text ∈ charsOfMembers members, ∀ c ∈ text, Printable c := by
  cases members with
  | nil => simp [charsOfMembers]
  | cons member members =>
    obtain ⟨key, value⟩ := member
    have colon : Printable ':' := printable_mark rfl
    rw [charsOfMembers]
    refine List.forall_mem_cons.2 ⟨?_, printable_charsOfMembers members⟩
    exact List.forall_mem_append.2
      ⟨fun c hc => printable_quote hc, List.forall_mem_cons.2 ⟨colon, printable_chars value⟩⟩

end

theorem newline_not_mem_chars (json : Json) : '\n' ∉ json.chars := by
  intro newline
  have printable : 0x20 ≤ '\n'.toNat := printable_chars json '\n' newline
  exact absurd printable (by decide)

/-! ## Documents of tokens -/

variable {numbers : Number.Reader}

namespace Document

/-- A value may follow, and it will stand on this stack. -/
def Opens (state : State) (stack : List Frame) : Prop :=
  ∀ token, token ≠ .closeBracket → step state token = enter stack token

/-- A key may follow in an object that has these members so far. -/
def AwaitsKey (state : State) (stack : List Frame)
    (done : List (Option String × Document)) : Prop :=
  ∀ key, step state (.leaf (.text key)) = some (.colon stack done key)

/-- The tokens make up the document wherever a value may follow. -/
def Builds (tokens : List Token) (document : Document) : Prop :=
  ∀ state stack, Opens state stack → tokens.foldlM step state = some (.complete stack document)

/-- The tokens make up the last items of an array. -/
def BuildsItems (tokens : List Token) (items : List Document) : Prop :=
  ∀ state stack done, Opens state (.items done :: stack) →
    (tokens ++ [Token.closeBracket]).foldlM step state =
      some (.complete stack (.array (done.reverse ++ items)))

/-- The tokens make up the last members of an object. -/
def BuildsMembers (tokens : List Token) (members : List (Option String × Document)) : Prop :=
  ∀ state stack done, AwaitsKey state stack done →
    (tokens ++ [Token.closeBrace]).foldlM step state =
      some (.complete stack (.object (done.reverse ++ members)))

theorem opens_value (stack : List Frame) : Opens (.value stack) stack :=
  fun _ _ => rfl

theorem opens_firstItem (stack : List Frame) :
    Opens (.firstItem stack) (.items [] :: stack) := by
  intro token not_closing
  cases token with
  | closeBracket => exact absurd rfl not_closing
  | openBracket | openBrace | closeBrace | comma | colon | leaf value => rfl

theorem builds_leaf (value : Leaf) : Builds [.leaf value] (.leaf value) := by
  intro state stack opens
  rw [List.foldlM_cons, opens _ (by simp)]
  rfl

theorem builds_array_nil : Builds [.openBracket, .closeBracket] (.array []) := by
  intro state stack opens
  rw [List.foldlM_cons, opens _ (by simp)]
  rfl

theorem builds_object_nil : Builds [.openBrace, .closeBrace] (.object []) := by
  intro state stack opens
  rw [List.foldlM_cons, opens _ (by simp)]
  rfl

theorem builds_array {tokens : List Token} {items : List Document}
    (inner : BuildsItems tokens items) :
    Builds (.openBracket :: (tokens ++ [.closeBracket])) (.array items) := by
  intro state stack opens
  rw [List.foldlM_cons, opens _ (by simp)]
  exact inner (.firstItem stack) stack [] (opens_firstItem stack)

theorem builds_object {tokens : List Token} {members : List (Option String × Document)}
    (inner : BuildsMembers tokens members) :
    Builds (.openBrace :: (tokens ++ [.closeBrace])) (.object members) := by
  intro state stack opens
  rw [List.foldlM_cons, opens _ (by simp)]
  exact inner (.firstKey stack) stack [] fun key => rfl

theorem Builds.lastItem {tokens : List Token} {item : Document} (built : Builds tokens item) :
    BuildsItems tokens [item] := by
  intro state stack done opens
  rw [List.foldlM_append, built state _ opens]
  simp [step]

theorem Builds.moreItems {tokens rest : List Token} {item : Document} {items : List Document}
    (built : Builds tokens item) (more : BuildsItems rest items) :
    BuildsItems (tokens ++ .comma :: rest) (item :: items) := by
  intro state stack done opens
  -- Behind the comma the rest is read as items of an array that holds one item more.
  have next := more (.value (.items (item :: done) :: stack)) stack (item :: done) (opens_value _)
  rw [List.append_assoc, List.cons_append, List.foldlM_append, built state _ opens]
  simpa [step] using next

theorem Builds.lastMember {tokens : List Token} {document : Document} (key : Option String)
    (built : Builds tokens document) :
    BuildsMembers (.leaf (.text key) :: .colon :: tokens) [(key, document)] := by
  intro state stack done awaits
  have value := built (.value (.members done key :: stack)) _ (opens_value _)
  rw [List.cons_append, List.cons_append, List.foldlM_cons, awaits key]
  simp [step, List.foldlM_append, value]

theorem Builds.moreMembers {tokens rest : List Token} {document : Document}
    {members : List (Option String × Document)} (key : Option String)
    (built : Builds tokens document) (more : BuildsMembers rest members) :
    BuildsMembers (.leaf (.text key) :: .colon :: (tokens ++ .comma :: rest))
      ((key, document) :: members) := by
  intro state stack done awaits
  have value := built (.value (.members done key :: stack)) _ (opens_value _)
  have next := more (.key stack ((key, document) :: done)) stack _ fun key => rfl
  rw [List.cons_append, List.cons_append, List.foldlM_cons, awaits key]
  simpa [step, List.foldlM_append, value] using next

end Document

/-! ## Reading what is written -/

mutual

/-- The numbers that a value holds. -/
def heldNumbers : Json → List Number
  | .number n => [n]
  | .array items => heldByAll items
  | .object members => heldByMembers members
  | _ => []

def heldByAll : List Json → List Number
  | [] => []
  | item :: items => heldNumbers item ++ heldByAll items

def heldByMembers : List (String × Json) → List Number
  | [] => []
  | (_, value) :: members => heldNumbers value ++ heldByMembers members

end

theorem mem_heldByMembers {n : Number} {members : List (String × Json)} :
    n ∈ heldByMembers members ↔ ∃ member ∈ members, n ∈ member.2.heldNumbers := by
  induction members with
  | nil => simp [heldByMembers]
  | cons member members ih => simp [heldByMembers, ih]

/-- A number has a text, and the reading gives the number back. -/
def Number.ReadBack (numbers : Reader) (n : Number) : Prop :=
  n.Representable ∧ numbers n.chars = some (some n)

theorem Number.readBack_integer {value : Int} (fits : Fits value) :
    (integer value).ReadBack ofLexeme? :=
  ⟨.integer fits, ofLexeme?_integer fits⟩

/-- The text is divided into tokens that make up the document. -/
def Spells (numbers : Number.Reader) (text : List Char) (document : Document) : Prop :=
  ∃ tokens, Lexes numbers text tokens ∧ Document.Builds tokens document

theorem Spells.readBy? {text : List Char} {document : Document}
    (spells : Spells numbers text document) : Document.readBy? numbers text = some document := by
  obtain ⟨tokens, lexes, builds⟩ := spells
  rw [Document.readBy?, tokens?_of_lexes lexes, Option.bind_some, Document.ofTokens?,
    builds _ [] (Document.opens_value [])]
  rfl

theorem spells_word {word : String} {leaf : Leaf} (isWord : word ∈ ["null", "true", "false"])
    (value : Leaf.ofLexeme? numbers word.toList = some leaf) :
    Spells numbers word.toList (.leaf leaf) := by
  have nonempty : ∀ word ∈ ["null", "true", "false"], word.toList ≠ [] := by decide
  exact ⟨_, lexes_lexeme (nonempty word isWord) (inLexeme_of_word isWord) value,
    Document.builds_leaf leaf⟩

theorem spells_number {n : Number} (back : n.ReadBack numbers) :
    Spells numbers n.chars (.leaf (.number (some n))) := by
  obtain ⟨has, read⟩ := back
  have value := has.ofLexeme? numbers
  rw [read] at value
  exact ⟨_, lexes_lexeme n.chars_ne_nil n.inLexeme_chars value, Document.builds_leaf _⟩

theorem Lexes.enclosed {text : List Char} {tokens : List Token} {left right : Char}
    {first last : Token} (opening : Token.ofMark? left = some first)
    (inner : Lexes numbers text tokens) (closing : Token.ofMark? right = some last) :
    Lexes numbers (left :: (text ++ [right])) (first :: (tokens ++ [last])) :=
  lexes_nil.mark opening (inner.mark closing lexes_nil)

mutual

theorem spells_chars (json : Json) (back : ∀ n ∈ json.heldNumbers, n.ReadBack numbers) :
    Spells numbers json.chars (.ofJson json) := by
  cases json with
  | null => exact spells_word (by simp) rfl
  | truth value => cases value <;> exact spells_word (by simp) rfl
  | number n => exact spells_number (back n (by simp [heldNumbers]))
  | text s => exact ⟨_, lexes_quote s, Document.builds_leaf _⟩
  | array items =>
    by_cases empty : items = []
    · subst empty
      exact ⟨_, lexes_nil.enclosed rfl rfl, Document.builds_array_nil⟩
    · obtain ⟨tokens, lexes, builds⟩ := spells_all items empty back
      exact ⟨_, lexes.enclosed rfl rfl, Document.builds_array builds⟩
  | object members =>
    by_cases empty : members = []
    · subst empty
      exact ⟨_, lexes_nil.enclosed rfl rfl, Document.builds_object_nil⟩
    · obtain ⟨tokens, lexes, builds⟩ := spells_members members empty back
      exact ⟨_, lexes.enclosed rfl rfl, Document.builds_object builds⟩

theorem spells_all (items : List Json) (nonempty : items ≠ [])
    (back : ∀ n ∈ heldByAll items, n.ReadBack numbers) :
    ∃ tokens, Lexes numbers (Text.joinCommas (charsOfAll items)) tokens ∧
      Document.BuildsItems tokens (Document.ofAll items) := by
  cases items with
  | nil => exact absurd rfl nonempty
  | cons item items =>
    obtain ⟨here, rest⟩ := List.forall_mem_append.1 back
    obtain ⟨tokens, lexes, builds⟩ := spells_chars item here
    -- No comma stands behind the last item.
    by_cases last : items = []
    · subst last
      exact ⟨tokens, lexes, builds.lastItem⟩
    · obtain ⟨tokens', lexes', builds'⟩ := spells_all items last rest
      obtain ⟨next, items, rfl⟩ := List.exists_cons_of_ne_nil last
      exact ⟨_, lexes.mark rfl lexes', builds.moreItems builds'⟩

theorem spells_members (members : List (String × Json)) (nonempty : members ≠ [])
    (back : ∀ n ∈ heldByMembers members, n.ReadBack numbers) :
    ∃ tokens, Lexes numbers (Text.joinCommas (charsOfMembers members)) tokens ∧
      Document.BuildsMembers tokens (Document.ofMembers members) := by
  cases members with
  | nil => exact absurd rfl nonempty
  | cons member members =>
    obtain ⟨key, value⟩ := member
    obtain ⟨here, rest⟩ := List.forall_mem_append.1 back
    obtain ⟨tokens, lexes, builds⟩ := spells_chars value here
    have colon : Token.ofMark? ':' = some .colon := rfl
    have keyed := (lexes_quote key).mark colon lexes
    by_cases last : members = []
    · subst last
      exact ⟨_, keyed, builds.lastMember (some key)⟩
    · obtain ⟨tokens', lexes', builds'⟩ := spells_members members last rest
      obtain ⟨next, members, rfl⟩ := List.exists_cons_of_ne_nil last
      exact ⟨_, keyed.mark rfl lexes', builds.moreMembers (some key) builds'⟩

end

/-- The text of a value is read as its document. -/
theorem readBy?_chars {json : Json} (back : ∀ n ∈ json.heldNumbers, n.ReadBack numbers) :
    Document.readBy? numbers json.chars = some (.ofJson json) :=
  (spells_chars json back).readBy?

end Reckoner.Json
