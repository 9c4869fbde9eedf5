import Mathlib.Data.List.Nodup
import Reckoner.Proofs.Operands
import Reckoner.Repertoire

/-! # Repertoires that insertions build

Whatever the order of its insertions, the names of a repertoire are fit for calls (`Built.checked`)
and distinct (`Built.nodup`), so that a function is found under its own name (`Built.get?_of_mem`).
-/

namespace Reckoner

/-- A computation with an answer had one at every step. -/
theorem bind_eq_ok {ε α β : Type} {first : Except ε α} {next : α → Except ε β} {b : β}
    (h : first >>= next = .ok b) : ∃ a, first = .ok a ∧ next a = .ok b := by
  cases first with
  | error fault => cases h
  | ok a => exact ⟨a, rfl, h⟩

theorem Function.checkName_eq_ok_iff {name : String} : checkName name = .ok () ↔
    name.toList ≠ [] ∧ ∀ c ∈ name.toList, isNameChar c = true := by
  unfold checkName
  split
  · next hempty => simp [hempty]
  · next hempty =>
    split
    · next hchars => simpa [hempty] using hchars
    · next hchars => simpa [hempty] using hchars

theorem Function.plain_of_checkName {name : String} (h : checkName name = .ok ()) :
    ∀ c ∈ name.toList, c ≠ '(' ∧ c ≠ ')' ∧ c ≠ ',' := by
  intro c hc
  have := (checkName_eq_ok_iff.1 h).2 c hc
  simp [isNameChar] at this
  exact this.2

namespace Repertoire

/-- The repertoires that insertions build. -/
inductive Built : Repertoire → Prop where
  | empty : Built empty
  | insert {known next : Repertoire} {f : Function} (earlier : Built known)
      (inserted : known.insert f = .ok next) : Built next

theorem insert_eq_ok_iff {known next : Repertoire} {f : Function} :
    known.insert f = .ok next ↔ Function.checkName f.name = .ok () ∧ f.name ∉ known.names ∧
      next = ⟨known.functions ++ [f.guard]⟩ := by
  rw [insert, ← contains_iff]
  cases Function.checkName f.name with
  | error fault => simp
  | ok checked =>
    cases known.contains f.name with
    | true => simp
    | false => simp [eq_comm]

theorem Built.checked {known : Repertoire} (built : Built known) :
    ∀ f ∈ known.functions, Function.checkName f.name = .ok () := by
  induction built with
  | empty =>
    intro f member
    cases member
  | @insert known next added earlier inserted ih =>
    obtain ⟨checked, -, rfl⟩ := insert_eq_ok_iff.1 inserted
    intro f member
    obtain member | member := List.mem_append.1 member
    · exact ih f member
    · obtain rfl : f = added.guard := by simpa using member
      exact checked

theorem Built.nodup {known : Repertoire} (built : Built known) : known.names.Nodup := by
  induction built with
  | empty => exact List.nodup_nil
  | insert earlier inserted ih =>
    obtain ⟨-, fresh, rfl⟩ := insert_eq_ok_iff.1 inserted
    rw [names, List.map_append]
    refine List.nodup_append.2 ⟨ih, by simp, ?_⟩
    intro name member other added
    obtain rfl := List.mem_singleton.1 added
    exact fun same => fresh (same ▸ member)

theorem built_single {f : Function} (checked : Function.checkName f.name = .ok ()) :
    Built ⟨[f.guard]⟩ :=
  .insert .empty (insert_eq_ok_iff.2 ⟨checked, List.not_mem_nil, rfl⟩)

theorem mem_of_get? {known : Repertoire} {name : String} {f : Function}
    (h : known.get? name = some f) : f ∈ known.functions ∧ f.name = name := by
  refine ⟨List.mem_of_find?_eq_some h, ?_⟩
  simpa using List.find?_some h

/-- Every function is the one found under its name. -/
theorem Built.get?_of_mem {known : Repertoire} (built : Built known) {f : Function}
    (member : f ∈ known.functions) : known.get? f.name = some f := by
  have nodup := built.nodup
  rw [names] at nodup
  cases hget : known.get? f.name with
  | none =>
    have := List.find?_eq_none.1 hget f member
    simp at this
  | some g =>
    obtain ⟨found, hname⟩ := mem_of_get? hget
    rw [List.inj_on_of_nodup_map nodup found member hname]

/-- No function has an operator in its name. -/
def WithoutOperators (known : Repertoire) : Prop :=
  ∀ f ∈ known.functions, ∀ c ∈ f.name.toList, c ∉ Expression.operatorChars

instance (known : Repertoire) : Decidable known.WithoutOperators :=
  decidable_of_iff (known.functions.all fun f =>
    f.name.toList.all (· ∉ Expression.operatorChars)) (by simp [WithoutOperators])

end Repertoire
end Reckoner
