import SurveyTables.Proofs.Json.Parse
import SurveyTables.Proofs.RowId
import SurveyTables.Proofs.Text.Numeral
import SurveyTables.Row

/-! Row numbers as they are written. Pairing keeps apart what it numbers, and a number is written
with all its digits whether or not it fits a machine word, so rows can still be told apart in an
export by what is written for them. -/
namespace SurveyTables

/-- The decimal numeral of a number: its digits, of which the first is nought only if it stands
alone. -/
def Text.IsNumeral (s : String) (n : Nat) : Prop :=
  ∃ lead rest, s.toList = (lead :: rest).map digitChar ∧ ofDigits (lead :: rest) = n ∧
    (lead.val = 0 → rest = [])

theorem Text.isNumeral_natNumeral (n : Nat) : IsNumeral (natNumeral n) n := by
  obtain ⟨lead, rest, digits, value, nought⟩ := exists_digits n
  refine ⟨lead, rest, ?_, value, fun zero => (nought (Fin.ext zero)).1⟩
  rw [natNumeral, String.toList_ofList, digits]

theorem Text.IsNumeral.unique {s : String} {m n : Nat} (first : IsNumeral s m)
    (second : IsNumeral s n) : m = n := by
  have read {k : Nat} (numeral : IsNumeral s k) : readNat? s.toList = some k := by
    obtain ⟨lead, rest, digits, value, -⟩ := numeral
    exact readNat?_eq_some_iff.2 ⟨lead :: rest, List.cons_ne_nil lead rest, digits, value⟩
  exact Option.some.inj ((read first).symm.trans (read second))

namespace RowId

theorem text_ofNat (n : Nat) : (Json.Number.ofNat n).text = Text.natNumeral n := by
  simp [Json.Number.text, Json.Number.chars, Json.Number.ofNat, Text.natNumeral]

/-- Reading a numeral gives the number that is made at once from what it denotes. -/
theorem ofText?_natNumeral (n : Nat) : ofText? (Text.natNumeral n) = some (.ofNat n) := by
  have read : Json.read? (Json.number (.ofNat n)).compact = some (.number (.ofNat n)) :=
    Json.read?_compact (.number _) (Nat.zero_le _)
  have compact : (Json.number (.ofNat n)).compact = Text.natNumeral n := text_ofNat n
  rw [compact] at read
  rw [ofText?, read]
  rfl

theorem number?_eq (id : Nat) : number? id = some (.ofNat id) := by
  rw [number?]
  split
  · rfl
  · exact ofText?_natNumeral id

theorem number?_injective {m n : Nat} (same : number? m = number? n) : m = n := by
  rw [number?_eq, number?_eq] at same
  exact congrArg Json.Number.whole (Option.some.inj same)

/-- What is promised of row numbers and of the way they are written. -/
structure Exact (pair : Nat → Nat → Nat) (number? : Nat → Option Json.Number) : Prop where
  injective : ∀ a b c d, pair a b = pair c d → a = c ∧ b = d
  /-- nothing is left over when a diagonal's place is halved -/
  halved : ∀ a b, 2 * pair a b = (a + b) * (a + b + 1) + 2 * b
  above : ∀ a b, 1 ≤ b → a < pair a b
  written : ∀ id, ∃ number, number? id = some number ∧ Text.IsNumeral number.text id
  /-- a number that is made at once is the number that is read from the numeral -/
  agree : ∀ id, number? id = some (.ofNat id) ∧ number? id = ofText? (Text.natNumeral id)
  /-- what is written at the end of a descent tells all its ordinals and where it began -/
  kept : ∀ a b (ks ls : List Nat), ks.length = ls.length →
    number? (ks.foldl pair a) = number? (ls.foldl pair b) → a = b ∧ ks = ls

/-- Row numbers are exact, however great they are. -/
theorem exact_pair : Exact pair number? where
  injective _ _ _ _ := pair_injective
  halved a b := by
    rw [pair_eq, Nat.mul_add, two_mul_triangle]
  above _ _ := lt_pair
  written id := ⟨.ofNat id, number?_eq id, text_ofNat id ▸ Text.isNumeral_natNumeral id⟩
  agree id := ⟨number?_eq id, by rw [number?_eq, ofText?_natNumeral]⟩
  kept _ _ _ _ steps same := reach_injective steps (number?_injective same)

end RowId

namespace Row

@[simp] theorem idCell?_eq (id : Nat) : idCell? id = some (.int id) := by
  rw [idCell?, RowId.number?_eq]
  rfl

@[simp] theorem idJson_eq (id : Nat) : idJson id = .ofNat id := by
  rw [idJson, RowId.number?_eq]
  rfl

end Row

end SurveyTables
