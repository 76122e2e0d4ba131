import SurveyTables.Text.Numeral

/-! Faults of JSON text: what is wrong, and in which line and column. A fault that is reported
as a text names its place at the end. -/
namespace SurveyTables.Json

open SurveyTables.Text

/-- A fault. Lines count from one; line nought says that the place is not known. -/
structure Fault where
  reason : String
  line : Nat
  column : Nat
deriving DecidableEq, Repr

namespace Fault

def lineMark : List Char := " at line ".toList

def columnMark : List Char := " column ".toList

def cutAtLast (mark : List Char) : List Char → Option (List Char × List Char)
  | [] => none
  | c :: cs =>
    match cutAtLast mark cs with
    | some (before, after) => some (c :: before, after)
    | none =>
      if mark.isPrefixOf (c :: cs) then some ([], (c :: cs).drop mark.length) else none

def readWord? (digits : List Char) : Option Nat :=
  (readNat? digits).filter (· < 2 * int64Bound)

def place? (cs : List Char) : Option (Nat × Nat) :=
  let line := cs.takeWhile Char.isDigit
  let rest := cs.drop line.length
  if columnMark.isPrefixOf rest then do
    return (← readWord? line, ← readWord? (rest.drop columnMark.length))
  else none

def read (report : String) : Fault :=
  let placed : Option Fault := do
    let (reason, after) ← cutAtLast lineMark report.toList
    let (line, column) ← place? after
    return ⟨String.ofList reason, line, column⟩
  placed.getD ⟨report, 0, 0⟩

def text (fault : Fault) : String :=
  if fault.line = 0 then fault.reason
  else fault.reason ++ String.ofList lineMark ++ natNumeral fault.line ++
    String.ofList columnMark ++ natNumeral fault.column

end Fault

example : (Fault.read "m at line 0 column 5").text = "m" := by decide +kernel
example : (Fault.read "m at line 02 column 0").text = "m at line 2 column 0" := by decide +kernel
example : (Fault.read "m at line 2 column ").text = "m at line 2 column " := by decide +kernel

end SurveyTables.Json
