import SurveyTables.Json.Raw

/-! Row numbers. The row of a submission has the submission's own number; the rows below a row
are numbered by pairing the row's number with their place below it, counted from one. They have no
greatest size, and are written with all their digits. -/
namespace SurveyTables.RowId

/-- Cantor's pairing of two natural numbers: the second counts along a diagonal, whose place
is the triangular number of the sum. -/
def pair (parent ordinal : Nat) : Nat :=
  (parent + ordinal) * (parent + ordinal + 1) / 2 + ordinal

def descend : Nat → List Nat → List Nat
  | _, [] => []
  | id, ordinal :: ordinals => pair id ordinal :: descend (pair id ordinal) ordinals

def ofText? (s : String) : Option Json.Number :=
  (Json.read? s).bind fun
    | .number n => some n
    | _ => none

def wordBound : Nat := 18446744073709551616

/-- A row number as JSON has it. What fits a word becomes a number at once, what does not is read
from its numeral. -/
def number? (id : Nat) : Option Json.Number :=
  if id < wordBound then some (.ofNat id) else ofText? (Text.natNumeral id)

example : pair 1 1 = 4 ∧ pair 1 2 = 8 ∧ pair 2 1 = 7 := by decide

end SurveyTables.RowId
