import SurveyTables.Json.Basic
import SurveyTables.Text.Blank

/-! Answers to select-multiple questions. Each declared choice has a column of its own, which
says whether the choice was picked. -/
namespace SurveyTables.Selection

def column (stem fieldName choice : String) : String := stem ++ fieldName ++ "_" ++ choice

def columns (stem fieldName : String) (choices : List String) : List String :=
  choices.map (column stem fieldName)

def flag (picked : List String) (choice : String) : String :=
  if choice ∈ picked then "TRUE" else "FALSE"

/-- The flag of every choice, in the order of the choices. Picks that are no choice of the
field leave no trace. -/
def flags (stem fieldName : String) (choices picked : List String) : Keyed String :=
  Keyed.ofList (choices.map fun choice => (column stem fieldName choice, flag picked choice))

def textOf? : Json → Option String
  | .string s => some s
  | _ => none

/-- The picks that a stored answer holds: the words of a text or the strings of a list. -/
def picks : Json → List String
  | .string s => Text.words s
  | .array items => items.filterMap textOf?
  | _ => []

end SurveyTables.Selection
