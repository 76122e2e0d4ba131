import SurveyTables.Form.Basic
import SurveyTables.Geopoint
import SurveyTables.Header
import SurveyTables.Layout.Schema
import SurveyTables.Selection

/-! One table of an export: its columns, and for each field that it exports a binding, which
says where in a submission the values of the field's columns are found. A field takes all its
column names at once, or is left out when one of them is taken. -/
namespace SurveyTables

def rootName : String := "data"

def idColumn : String := "_id"
def parentIdColumn : String := "__parent_id"
def parentTableColumn : String := "__parent_table"

/-- The columns that link rows to each other; no field and no child table has their names. -/
def linkColumns : List String := [idColumn, parentIdColumn, parentTableColumn]

/-- Where the values of one field are found, by the field's path. -/
inductive Binding where
  | scalar (path column : String) (type : ColumnType)
  | media (path column : String)
  | selection (path fieldName : String) (choices : List String)
  | position (path fieldName : String)
  /-- the rows of the table with this place in the layout -/
  | rows (path : String) (table : Nat)
deriving DecidableEq, Repr

/-- The names in `taken` are no longer free for columns: the link columns, the columns, and
the names of the child tables that were opened from this table. The root table has no
repeat path. -/
structure Table where
  schema : TableSchema
  repeatPath : Option String
  bindings : List Binding
  taken : List String
deriving DecidableEq, Repr

namespace Table

def name (table : Table) : String := table.schema.name

def linkageOf (repeatPath : Option String) : List Column :=
  match repeatPath with
  | none => [.named idColumn .int]
  | some _ =>
    [.named idColumn .int, .named parentIdColumn .int, .named parentTableColumn .string]

def start (name connectionName : String) (repeatPath : Option String) : Table where
  schema := ⟨name, connectionName, linkageOf repeatPath⟩
  repeatPath := repeatPath
  bindings := []
  taken := linkColumns

def childTables (table : Table) : List Nat :=
  table.bindings.filterMap fun
    | .rows _ child => some child
    | _ => none

/-- The name from which the names of a field's columns are made: in the root table the whole
path, in the table of a repeat group the clean header. -/
def baseName (table : Table) (field : Field) : String :=
  match table.repeatPath with
  | some repeatPath => Header.clean (Header.ofRound repeatPath field.path 1)
  | none => String.ofList (field.path.toList.map fun c => if c = '/' then '_' else c)

def contribution (table : Table) (field : Field) : List Column × Binding :=
  let base := table.baseName field
  match field.kind with
  | .selectMultiple =>
    ((Selection.columns "" base field.choiceNames).map (Column.named · .string),
      .selection field.path base field.choiceNames)
  | .geopoint =>
    ((Geopoint.columns "" base).map (Column.named · .string), .position field.path base)
  | kind =>
    let type : ColumnType := if kind.isInteger then .int else .string
    ([.named base type],
      if kind.isMedia then .media field.path base else .scalar field.path base type)

def canClaim (table : Table) (names : List String) : Bool :=
  names.all (fun name => !table.taken.contains name) && decide names.Nodup

/-- Adds a field with all its columns, or leaves the table as it is. -/
def addField (table : Table) (field : Field) : Table :=
  let (columns, binding) := table.contribution field
  let names := columns.map Column.id
  if table.canClaim names then
    { table with
      schema := { table.schema with columns := table.schema.columns ++ columns }
      bindings := table.bindings ++ [binding]
      taken := table.taken ++ names }
  else table

/-- Reserves the name of a child table, under which child rows stand beside the columns. -/
def reserve (table : Table) (child : String) : Table :=
  { table with taken := table.taken ++ [child] }

def bindRows (table : Table) (path : String) (child : Nat) : Table :=
  { table with bindings := table.bindings ++ [.rows path child] }

end Table

end SurveyTables
