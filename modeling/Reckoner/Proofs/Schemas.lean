import Reckoner.Json.Schema
import Reckoner.Proofs.Documents
import Reckoner.Proofs.Records

/-! # The JSON forms of arities and exclusions

What is written for an arity of 64 bits or for a list of exclusions is read back as the same, and
two arities with one text are one arity.  Both have more forms than the one that is written: members
that are not known are passed over, an array may stand for an object, and exclusions may do without
their list.  Which documents are read is said in full by `Exclusions.ofDocument?_eq_some_iff` and
`Arity.ofDocument?_eq_some_iff`.
-/

namespace Reckoner

/-! ## Digits -/

namespace Digits

theorem ofDigit_eq_digitChar {d : Nat} (small : d < 10) : ofDigit d = Nat.digitChar d := by
  have table : ∀ d, d < 10 → ofDigit d = Nat.digitChar d := by decide
  exact table d small

theorem ofNat_eq_toDigits (n : Nat) : ofNat n = Nat.toDigits 10 n := by
  induction n using ofNat.induct with
  | case1 n small =>
    rw [ofNat, if_pos small, ofDigit_eq_digitChar small, Nat.toDigits_of_lt_base small]
  | case2 n large ih =>
    have last : n % 10 < 10 := Nat.mod_lt n (by decide)
    rw [ofNat, if_neg large, ih, ofDigit_eq_digitChar last,
      Nat.toDigits_of_base_le (by decide) (Nat.le_of_not_lt large)]

end Digits

namespace Json

/-! ## Reading a text as one of the program's types -/

/-- What a type makes of a text that is a document with nothing but space around it. -/
def decode? {α : Type} (ofDocument? : Document → Option α) (text : String) : Option α :=
  (Document.read? text.toList).bind ofDocument?

theorem decode?_of_read? {α : Type} {ofDocument? : Document → Option α} {text : String}
    {document : Document} (read : Document.read? text.toList = some document) :
    decode? ofDocument? text = ofDocument? document := by
  rw [decode?, read, Option.bind_some]

theorem decode?_render {α : Type} {ofDocument? : Document → Option α} {json : Json}
    (back : ∀ n ∈ json.heldNumbers, n.ReadBack Number.ofLexeme?) :
    decode? ofDocument? json.render = ofDocument? (.ofJson json) := by
  apply decode?_of_read?
  rw [render, String.toList_ofList]
  exact readBy?_chars back

theorem render_ofNat (n : Nat) : (ofNat n).render = toString n := by
  have written : (ofNat n).chars = (Number.integer n).chars := rfl
  apply String.toList_inj.1
  rw [Nat.toString_eq_repr, Nat.toList_repr, ← Digits.ofNat_eq_toDigits]
  simp [render, written, Number.chars]

theorem render_single (key : String) (value : Json) : (object [(key, value)]).render =
    "\x7b" ++ String.ofList (Quoted.quote key) ++ ":" ++ value.render ++ "\x7d" := by
  have written : (object [(key, value)]).chars =
      '\x7b' :: (Quoted.quote key ++ ':' :: value.chars ++ ['\x7d']) := rfl
  apply String.toList_inj.1
  simp [render, written]

theorem readBack_count {n : Nat} (fits : n < 2 ^ 64) :
    (Number.integer n).ReadBack Number.ofLexeme? := by
  have bound : Number.significandBound = 2 ^ 64 := rfl
  apply Number.readBack_integer
  constructor <;> omega

theorem heldNumbers_ofTexts (texts : List String) : (ofTexts texts).heldNumbers = [] := by
  rw [ofTexts, heldNumbers]
  induction texts with
  | nil => rfl
  | cons text texts ih => rwa [List.map_cons, heldByAll]

theorem heldByMembers_eq_nil {members : List (String × Json)}
    (numberless : ∀ member ∈ members, member.2.heldNumbers = []) : heldByMembers members = [] := by
  apply List.eq_nil_iff_forall_not_mem.2
  intro n held
  obtain ⟨member, given, inside⟩ := mem_heldByMembers.1 held
  rw [numberless member given] at inside
  cases inside

/-- Members with texts as their values. -/
def textMembers (members : List (String × String)) : List (String × Json) :=
  members.map fun member => (member.1, .text member.2)

theorem heldNumbers_of_mem_textMembers {members : List (String × String)} :
    ∀ member ∈ textMembers members, member.2.heldNumbers = [] := by
  intro member given
  obtain ⟨_, -, rfl⟩ := List.mem_map.1 given
  rfl

end Json

open Json (Document decode? textMembers)
open Json.Document (Holds IsOther Lacks)

/-! ## Exclusions -/

namespace Exclusions

/-- Exclusions are read from a record with a list of texts, or without one. -/
theorem ofDocument?_eq_some_iff {document : Document} {exclusions : Exclusions} :
    ofDocument? document = some exclusions ↔
      Holds "disabled" (.ofJson (.ofTexts exclusions.names)) document ∨
        Lacks "disabled" document ∧ exclusions = {} := by
  have names {value : Document} : value.strings?.map Exclusions.mk = some exclusions ↔
      value = .ofJson (.ofTexts exclusions.names) := by
    rw [← Document.strings?_eq_some_iff]
    cases exclusions
    simp
  constructor
  · intro read
    unfold ofDocument? at read
    cases fields : document.fields? ["disabled"] 0 with
    | none =>
      rw [fields] at read
      cases read
    | some found =>
      rw [fields] at read
      obtain ⟨value, rfl, holds⟩ | ⟨rfl, lacks⟩ := Document.holds_or_lacks_of_fields? fields
      · rw [names.1 read] at holds
        exact .inl holds
      · exact .inr ⟨lacks, (Option.some.inj read).symm⟩
  · rw [ofDocument?]
    rintro (holds | ⟨lacks, rfl⟩)
    · rw [holds.fields? (Nat.zero_le 1)]
      exact names.2 rfl
    · rw [lacks.fields?]

/-- Texts under other keys may stand around the names. -/
theorem holds_among (exclusions : Exclusions) {before after : List (String × String)}
    (others : ∀ member ∈ before ++ after, member.1 ≠ "disabled") :
    Holds "disabled" (.ofJson (.ofTexts exclusions.names)) (.ofJson (.object (textMembers before ++
      ("disabled", .ofTexts exclusions.names) :: textMembers after))) := by
  rw [Document.ofJson, Document.ofMembers_eq_map, List.map_append, List.map_cons]
  apply Holds.member
  intro member given
  rw [← List.map_append, textMembers, textMembers, ← List.map_append, List.map_map] at given
  obtain ⟨other, listed, rfl⟩ := List.mem_map.1 given
  exact ⟨other.1, rfl, others other listed⟩

theorem decode?_among (exclusions : Exclusions) {before after : List (String × String)}
    (others : ∀ member ∈ before ++ after, member.1 ≠ "disabled") :
    decode? ofDocument? (Json.object (textMembers before ++
      ("disabled", .ofTexts exclusions.names) :: textMembers after)).render = some exclusions := by
  have numberless : (Json.object (textMembers before ++
      ("disabled", .ofTexts exclusions.names) :: textMembers after)).heldNumbers = [] := by
    apply Json.heldByMembers_eq_nil
    simp only [List.forall_mem_append, List.forall_mem_cons]
    exact ⟨Json.heldNumbers_of_mem_textMembers, Json.heldNumbers_ofTexts _,
      Json.heldNumbers_of_mem_textMembers⟩
  rw [Json.decode?_render (by simp [numberless])]
  exact ofDocument?_eq_some_iff.2 (.inl (exclusions.holds_among others))

theorem decode?_toJson (exclusions : Exclusions) :
    decode? ofDocument? exclusions.toJson.render = some exclusions := by
  have alone : exclusions.toJson = .object (textMembers [] ++
      ("disabled", .ofTexts exclusions.names) :: textMembers []) := rfl
  rw [alone]
  exact exclusions.decode?_among (by simp)

theorem decode?_listed (exclusions : Exclusions) :
    decode? ofDocument? (Json.array [.ofTexts exclusions.names]).render = some exclusions := by
  have numberless : (Json.array [.ofTexts exclusions.names]).heldNumbers = [] := by
    simp [Json.heldNumbers, Json.heldByAll, Json.heldNumbers_ofTexts]
  rw [Json.decode?_render (by simp [numberless])]
  exact ofDocument?_eq_some_iff.2 (.inl .item)

theorem decode?_of_lacks {text : String} {document : Document}
    (read : Document.read? text.toList = some document) (lacks : Lacks "disabled" document) :
    decode? ofDocument? text = some {} := by
  rw [Json.decode?_of_read? read]
  exact ofDocument?_eq_some_iff.2 (.inr ⟨lacks, rfl⟩)

end Exclusions

/-! ## Arities -/

namespace Arity

/-- The number that an arity names. -/
def number : Arity → Nat
  | exactly count => count
  | atLeast least => least

theorem render_exactly (n : Nat) :
    (exactly n).toJson.render = "\x7b\"fixed\":" ++ toString n ++ "\x7d" := by
  rw [toJson, Json.render_single, Json.render_ofNat]
  rfl

theorem render_atLeast (n : Nat) : (atLeast n).toJson.render =
    "\x7b\"variadic\":\x7b\"min\":" ++ toString n ++ "\x7d\x7d" := by
  have closing : "\x7d\x7d" = "\x7d" ++ "\x7d" := rfl
  rw [toJson, Json.render_single, Json.render_single, Json.render_ofNat, closing]
  simp only [← String.append_assoc]
  rfl

theorem render_injective {arity other : Arity}
    (same : arity.toJson.render = other.toJson.render) : arity = other := by
  have apart (m n : Nat) : (exactly m).toJson.render ≠ (atLeast n).toJson.render := by
    intro same
    have beginnings := congrArg (fun text => text.toList.take 3) same
    simp [render_exactly, render_atLeast] at beginnings
  cases arity with
  | exactly m =>
    cases other with
    | exactly n => simpa [render_exactly, Nat.repr_inj] using same
    | atLeast n => exact absurd same (apart m n)
  | atLeast m =>
    cases other with
    | exactly n => exact absurd same.symm (apart n m)
    | atLeast n => simpa [render_atLeast, Nat.repr_inj] using same

theorem heldNumbers_toJson (arity : Arity) :
    arity.toJson.heldNumbers = [.integer arity.number] := by
  cases arity <;> rfl

/-- The documents that are read as arities. -/
inductive Form : Document → Arity → Prop
  | exactly (n : Nat) : Form (.object [(some "fixed", .ofJson (.ofNat n))]) (exactly n)
  | atLeast {payload : Document} (n : Nat) (holds : Holds "min" (.ofJson (.ofNat n)) payload) :
      Form (.object [(some "variadic", payload)]) (atLeast n)

theorem form_toJson (arity : Arity) : Form (.ofJson arity.toJson) arity := by
  cases arity with
  | exactly n => exact .exactly n
  | atLeast n => exact .atLeast n (@Holds.member _ _ [] [] (by simp))

theorem ofDocument?_eq_some_iff {document : Document} {arity : Arity} :
    ofDocument? document = some arity ↔ Form document arity := by
  constructor
  · intro read
    unfold ofDocument? at read
    split at read
    · next key payload =>
      split at read
      · next fixed =>
        obtain ⟨n, counted, rfl⟩ := Option.map_eq_some_iff.1 read
        rw [fixed, Document.count?_eq_some_iff.1 counted]
        exact .exactly n
      · split at read
        · next variadic =>
          split at read
          · next least fields =>
            obtain ⟨n, counted, rfl⟩ := Option.map_eq_some_iff.1 read
            obtain ⟨value, found, holds⟩ | ⟨found, -⟩ :=
              Document.holds_or_lacks_of_fields? fields
            · obtain rfl : least = value := by simpa using found
              rw [Document.count?_eq_some_iff.1 counted] at holds
              rw [variadic]
              exact .atLeast n holds
            · cases found
          · cases read
        · cases read
    · cases read
  · intro form
    cases form with
    | exactly n =>
      show (Document.count? (.ofJson (.ofNat n))).map exactly = some (exactly n)
      rw [Document.count?_eq_some_iff.2 rfl, Option.map_some]
    | @atLeast payload n holds =>
      have fields := holds.fields? (Nat.le_refl 1)
      rw [ofDocument?, if_neg (by decide), if_pos rfl, fields]
      show (Document.count? (.ofJson (.ofNat n))).map atLeast = some (atLeast n)
      rw [Document.count?_eq_some_iff.2 rfl, Option.map_some]

theorem decode?_toJson {arity : Arity} (fits : arity.number < 2 ^ 64) :
    decode? ofDocument? arity.toJson.render = some arity := by
  have back : ∀ n ∈ arity.toJson.heldNumbers, n.ReadBack Json.Number.ofLexeme? := by
    rw [heldNumbers_toJson]
    simpa using Json.readBack_count fits
  rw [Json.decode?_render back]
  exact ofDocument?_eq_some_iff.2 arity.form_toJson

end Arity

/-! ## Both types -/

/-- Exclusions and arities survive their text, strings with any characters and counts of 64 bits
included.  For exclusions an array or an object with texts under other keys does as well; no names
at all stand for an empty list, and names that are given twice are refused. -/
theorem decode?_render_written :
    (∀ exclusions : Exclusions,
      decode? Exclusions.ofDocument? exclusions.toJson.render = some exclusions ∧
      decode? Exclusions.ofDocument? (Json.array [.ofTexts exclusions.names]).render =
        some exclusions ∧
      ∀ before after : List (String × String),
        (∀ member ∈ before ++ after, member.1 ≠ "disabled") →
          decode? Exclusions.ofDocument? (Json.object (textMembers before ++
            ("disabled", .ofTexts exclusions.names) :: textMembers after)).render =
              some exclusions) ∧
    (∀ text : String, Document.read? text.toList = some (.array []) →
      decode? Exclusions.ofDocument? text = some {}) ∧
    (∀ (text : String) (members : List (Option String × Document)),
      Document.read? text.toList = some (.object members) →
        ((∀ member ∈ members, IsOther "disabled" member) →
          decode? Exclusions.ofDocument? text = some {}) ∧
        (2 ≤ (members.map Prod.fst).count (some "disabled") →
          decode? Exclusions.ofDocument? text = none)) ∧
    (∀ arity : Arity, arity.number < 2 ^ 64 →
      decode? Arity.ofDocument? arity.toJson.render = some arity) ∧
    (∀ n : Nat,
      (Arity.exactly n).toJson.render = "\x7b\"fixed\":" ++ toString n ++ "\x7d" ∧
      (Arity.atLeast n).toJson.render =
        "\x7b\"variadic\":\x7b\"min\":" ++ toString n ++ "\x7d\x7d") ∧
    ∀ arity other : Arity, arity.toJson.render = other.toJson.render → arity = other := by
  refine ⟨?_, ?_, ?_, ?_, ?_, ?_⟩
  · intro exclusions
    exact ⟨exclusions.decode?_toJson, exclusions.decode?_listed,
      fun before after others => exclusions.decode?_among others⟩
  · intro text read
    exact Exclusions.decode?_of_lacks read .array
  · intro text members read
    constructor
    · intro others
      exact Exclusions.decode?_of_lacks read (.object others)
    · intro twice
      rw [Json.decode?_of_read? read, Exclusions.ofDocument?,
        Document.fields?_repeated (List.mem_singleton_self _) twice]
  · intro arity fits
    exact Arity.decode?_toJson fits
  · intro n
    exact ⟨Arity.render_exactly n, Arity.render_atLeast n⟩
  · intro arity other same
    exact Arity.render_injective same

theorem decode?_render_written_escaped :
    let exclusions : Exclusions := ⟨["\"\\\x01", "é\n😀", ""]⟩
    let before := [("Disabled", "\""), ("", "sin")]
    let after := [("disabled ", "["), ("", "\\")]
    let missing := " \x7b \"\" : \"disabled\", \"\" : \"\" \x7d"
    let repeated := "\x7b\"disabled\":[\"sin\"],\"disable\\u0064\":0\x7d"
    let arity := Arity.atLeast 18446744073709551615
    decode? Exclusions.ofDocument? exclusions.toJson.render = some exclusions ∧
      ((∀ member ∈ before ++ after, member.1 ≠ "disabled") ∧
        decode? Exclusions.ofDocument? (Json.object (textMembers before ++
          ("disabled", .ofTexts exclusions.names) :: textMembers after)).render =
            some exclusions) ∧
      decode? Exclusions.ofDocument? "[ ]" = some {} ∧
      decode? Exclusions.ofDocument? missing = some {} ∧
      decode? Exclusions.ofDocument? repeated = none ∧
      arity.number < 2 ^ 64 ∧ decode? Arity.ofDocument? arity.toJson.render = some arity := by
  intro exclusions before after missing repeated arity
  obtain ⟨written, empty, objects, counts, -, -⟩ := decode?_render_written
  have others : ∀ member ∈ before ++ after, member.1 ≠ "disabled" := by decide
  have nothing : Document.read? "[ ]".toList = some (.array []) := rfl
  have bare : Document.read? missing.toList = some (.object
      [(some "", .ofJson (.text "disabled")), (some "", .ofJson (.text ""))]) := by
    unfold missing
    rfl
  have unknown : ∀ member ∈ [(some "", Document.ofJson (.text "disabled")),
      (some "", .ofJson (.text ""))], IsOther "disabled" member := by
    simp [IsOther]
  have twice : Document.read? repeated.toList = some (.object
      [(some "disabled", .ofJson (.ofTexts ["sin"])), (some "disabled", .ofJson (.ofNat 0))]) := by
    unfold repeated
    rfl
  have fits : arity.number < 2 ^ 64 := by decide
  exact ⟨(written exclusions).1, ⟨others, (written exclusions).2.2 before after others⟩,
    empty _ nothing, (objects missing _ bare).1 unknown,
    (objects repeated _ twice).2 (by decide), fits, counts arity fits⟩

end Reckoner
