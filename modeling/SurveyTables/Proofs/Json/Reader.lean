import SurveyTables.Json.Reader
import SurveyTables.Proofs.Json.Parse
import SurveyTables.Proofs.Text.Numeral

/-! Reading what was written. A record that is written as an object with each of its names at most
once is read from exactly its members, and a list from exactly its items. -/
namespace SurveyTables.Json.Reader

variable {α β : Type}

@[simp] theorem string_ofJson (room : Nat) (s : String) :
    string room (.ofJson (.string s)) = some s := Literal.text?_ofText s

@[simp] theorem named_ofJson (ofName? : String → Option α) (room : Nat) (s : String) :
    named ofName? room (.ofJson (.string s)) = ofName? s := by
  have whole : (Literal.ofText s).text? = some s := Literal.text?_ofText s
  simp [Raw.ofJson, named, whole]

theorem fits_of_int64 {room : Nat} {raw : Raw} {n : Int} (read : int64 room raw = some n) :
    Text.FitsInt64 n := by
  cases raw with
  | number number =>
    rw [int64] at read
    split at read
    · contradiction
    · obtain ⟨-, fits, rfl⟩ := Number.int64?_eq_some_iff.1 read
      exact fits
  | _ => contradiction

theorem int64_ofInt {n : Int} (fits : Text.FitsInt64 n) (room : Nat) :
    int64 room (.ofJson (.ofInt n)) = some n := by
  have signed : (Number.ofInt n).signed = n := by
    simp only [Number.signed, Number.ofInt, decide_eq_true_eq]
    split <;> omega
  have plain : ¬((Number.ofInt n).negative && (Number.ofInt n).whole = 0) = true := by
    simp only [Number.ofInt, Bool.and_eq_true, decide_eq_true_eq, Int.natAbs_eq_zero]
    omega
  rw [ofInt, Raw.ofJson, int64, if_neg plain, Number.int64?_eq_some_iff, signed]
  exact ⟨⟨rfl, rfl⟩, fits, rfl⟩

theorem list_array (read : Reader α) (room : Nat) (items : List Json) :
    list read (room + 1) (.ofJson (.array items)) =
      items.mapM fun item => read room (.ofJson item) := by
  rw [Raw.ofJson, ofItems_eq, list, List.mapM_map]
  rfl

theorem knownMembers_ofMembers {names : List String} {members : List (String × Json)}
    (distinct : (members.map Prod.fst).Nodup) (known : ∀ member ∈ members, member.1 ∈ names) :
    knownMembers names (Raw.ofMembers members) =
      some (members.map fun member => (member.1, .ofJson member.2)) := by
  induction members with
  | nil => rfl
  | cons member members ih =>
    obtain ⟨new, distinct⟩ := List.nodup_cons.1 distinct
    obtain ⟨here, known⟩ := List.forall_mem_cons.1 known
    have once : ¬(Keyed.get? (members.map fun later => (later.1, Raw.ofJson later.2))
        member.1).isSome := by
      rw [Keyed.get?_isSome_iff, Keyed.keys, List.map_map]
      exact new
    simp [Raw.ofMembers, knownMembers, Literal.text?_ofText, ih distinct known, here, once]

/-- A record of which every field is written is built from the members that it was written with. -/
theorem record_object {names : List String} (build : Nat → Keyed Raw → Option α) (room : Nat)
    {members : List (String × Json)} (distinct : names.Nodup)
    (written : members.map Prod.fst = names) :
    record names build (room + 1) (.ofJson (.object members)) =
      build room (members.map fun member => (member.1, .ofJson member.2)) := by
  subst written
  have known : ∀ member ∈ members, member.1 ∈ members.map Prod.fst :=
    fun member inside => List.mem_map_of_mem inside
  rw [Raw.ofJson, record, fields, knownMembers_ofMembers distinct known, Option.bind_some]

end SurveyTables.Json.Reader
