import Mathlib.Tactic.SplitIfs
import SurveyTables.Yaml.Basic

/-! The fields of a record. A name is looked up as the record gives it, since a record in which it
comes twice is not read. -/
namespace SurveyTables

namespace Yaml

/-- A record gives a field under a name. -/
def Gives (value : Yaml) (name : String) (field : Yaml) : Prop :=
  ∃ members key, value = .mapping members ∧ (key, field) ∈ members ∧ key.text? = some name

variable {names : List String} {name : String} {field : Yaml} {found : Keyed Yaml}

theorem get?_of_knownEntries {members : List (Yaml × Yaml)}
    (known : knownEntries names members = some found) (asked : name ∈ names) :
    found.get? name = some field ↔ ∃ key, (key, field) ∈ members ∧ key.text? = some name := by
  induction members generalizing found with
  | nil =>
    obtain rfl : [] = found := Option.some.inj known
    simp
  | cons member members ih =>
    obtain ⟨key, value⟩ := member
    simp only [knownEntries, bind, Option.bind_eq_some_iff] at known
    obtain ⟨first, named, later, rest, known⟩ := known
    have split : (∃ other, (other, field) ∈ (key, value) :: members ∧ other.text? = some name) ↔
        (field = value ∧ name = first) ∨
          ∃ other, (other, field) ∈ members ∧ other.text? = some name := by
      simp [or_and_right, exists_or, and_assoc, named, eq_comm]
    rw [split, ← ih rest]
    split_ifs at known with listed twice
    · cases known
      rw [Keyed.get?_cons]
      by_cases here : name = first
      · subst here
        rw [Option.not_isSome_iff_eq_none] at twice
        simp [twice, eq_comm]
      · simp [here]
    · cases known
      have other : name ≠ first := fun same => listed (same ▸ asked)
      simp [other]

theorem get?_of_fields? {value : Yaml} (fields : value.fields? names = some found)
    (asked : name ∈ names) : found.get? name = some field ↔ value.Gives name field := by
  cases value with
  | mapping members =>
    rw [get?_of_knownEntries fields asked]
    constructor
    · rintro ⟨key, member, named⟩
      exact ⟨members, key, rfl, member, named⟩
    · rintro ⟨_, key, ⟨⟩, member, named⟩
      exact ⟨key, member, named⟩
  | _ =>
    simp only [fields?, Option.ite_none_right_eq_some, Option.some.injEq] at fields
    obtain ⟨-, rfl⟩ := fields
    simp [Gives]

end Yaml

end SurveyTables
