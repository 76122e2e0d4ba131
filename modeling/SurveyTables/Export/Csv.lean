import SurveyTables.Export.Written

/-! One table as comma-separated values: a record of column names, then a record for each of
the table's rows, whatever depth they stand at. Records end in a line feed. -/
namespace SurveyTables.Csv

def needsQuotes (field : String) : Bool :=
  field.toList.any fun c => c = ',' || c = '"' || c = '\n' || c = '\r'

def doubled (cs : List Char) : List Char := cs.flatMap fun c => if c = '"' then ['"', '"'] else [c]

def fieldChars (field : String) : List Char :=
  if needsQuotes field then '"' :: doubled field.toList ++ ['"'] else field.toList

/-- A record that would be an empty line is written as one empty field between quotation
marks. -/
def recordChars (fields : List String) : List Char :=
  let line := [','].intercalate (fields.map fieldChars)
  (if line.isEmpty then ['"', '"'] else line) ++ ['\n']

def record (fields : List String) : String := String.ofList (recordChars fields)

/-- The cells of a row in the given columns; a column that the row does not have is empty. -/
def cellsOf (columns : List String) (row : Row) : List String :=
  columns.map fun column => ((row.get? column).map Cell.plain).getD ""

def recordsOf (schema : TableSchema) (root : Row) : List String :=
  (root.rowsInTable schema.name).map fun row => record (cellsOf schema.columnIds row)

/-- The records of all root rows before the first error, and their number or that error. -/
def writeRows (schema : TableSchema) : List (Except ExportError Row) → Written
  | [] => ⟨"", .ok 0⟩
  | .error error :: _ => ⟨"", .error error⟩
  | .ok root :: rest =>
    let records := recordsOf schema root
    let later := writeRows schema rest
    ⟨records.foldr (· ++ ·) later.text, later.outcome.map (records.length + ·)⟩

def write (schema : TableSchema) (rows : Feed ExportError Row) : Written :=
  let body := writeRows schema rows.results
  ⟨record schema.columnIds ++ body.text, body.outcome⟩

example : record ["a,b", "say \"x\"", ""] = "\"a,b\",\"say \"\"x\"\"\",\n" := by decide +kernel
example : record [""] = "\"\"\n" ∧ record [] = "\"\"\n" ∧ record ["", ""] = ",\n" := by
  decide +kernel

end SurveyTables.Csv
