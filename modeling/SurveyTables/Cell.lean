import SurveyTables.Binary64
import SurveyTables.Layout.Schema
import SurveyTables.Submission

/-! Cells of exported tables. -/
namespace SurveyTables

inductive Cell where
  | null
  | int (n : Int)
  | text (s : String)
deriving DecidableEq, Repr

namespace Cell

def toJson : Cell → Json
  | .null => .null
  | .int n => .ofInt n
  | .text s => .string s

/-- The text of a cell in a comma-separated file. -/
def plain : Cell → String
  | .null => ""
  | .int n => Text.intNumeral n
  | .text s => s

/-- The integer that the nearest binary floating-point number of 64 bits is, if it is one
and its magnitude fits a signed word. -/
def roundedInt64? (n : Json.Number) : Option Int := do
  let nearest ← Binary64.ofDecimal n.significand n.scale
  let magnitude ← nearest.toNat?
  if magnitude < Text.int64Bound then
    return if n.negative then -(magnitude : Int) else magnitude
  else none

/-- The integer that a stored answer means. Plain numerals are taken exactly, other numbers
as floating-point numbers, texts only if they are numerals. -/
def integer? : Json → Option Int
  | .number n => n.int64?.or (roundedInt64? n)
  | .string s => Text.readInt64? (Text.trim s)
  | _ => none

def ofInteger (answer : Json) : Cell := (integer? answer).elim .null .int

/-- An answer that is no text is exported as its JSON text. -/
def ofText : Json → Cell
  | .null => .null
  | .string s => .text s
  | other => .text other.compact

def ofAnswer (type : ColumnType) : Option Json → Cell
  | none => .null
  | some answer =>
    match type with
    | .int => ofInteger answer
    | .string => ofText answer

end Cell

end SurveyTables
