import SurveyTables.Cell
import SurveyTables.Layout.Table
import SurveyTables.RowId

/-! Rows of an export. A row holds its own columns and the rows of its repeat groups, each
linked to it by its number and the name of its table. -/
namespace SurveyTables

structure ParentLink where
  id : Nat
  table : String
deriving DecidableEq, Repr

/-- `childTables` names the tables that the row's repeat groups fill, each once. The rows in
them are kept in one list, in the order in which the repeat groups are declared. -/
structure Row where
  table : String
  id : Nat
  parent : Option ParentLink
  columns : Keyed Cell
  childTables : List String
  children : List Row

namespace Row

/-- The cell of a row number, if the number can be written. -/
def idCell? (id : Nat) : Option Cell := (RowId.number? id).map fun number => .int number.whole

/-- The value of a column, link columns included. -/
def get? (row : Row) (column : String) : Option Cell :=
  if column = idColumn then idCell? row.id
  else if column = parentIdColumn then row.parent.bind fun parent => idCell? parent.id
  else if column = parentTableColumn then row.parent.map fun parent => .text parent.table
  else row.columns.get? column

def childrenIn (row : Row) (table : String) : List Row :=
  row.children.filter (·.table = table)

def childRows (row : Row) : List Row := row.childTables.flatMap row.childrenIn

/-- What was computed for the rows of one table, out of a list that names the table of each. -/
def pick {α : Type} (table : String) (all : List (String × α)) : List α :=
  (all.filter (·.1 = table)).map Prod.snd

mutual

/-- The row and all rows below it, each row before those below it and table by table. -/
def withDescendants : Row → List Row
  | ⟨table, id, parent, columns, childTables, children⟩ =>
    let below := eachWithDescendants children
    ⟨table, id, parent, columns, childTables, children⟩ ::
      childTables.flatMap fun child => (pick child below).flatten

def eachWithDescendants : List Row → List (String × List Row)
  | [] => []
  | row :: rows => (row.table, withDescendants row) :: eachWithDescendants rows

end

def rowsInTable (row : Row) (table : String) : List Row :=
  row.withDescendants.filter (·.table = table)

/-- A row number as it is written. Every number can be, so that none is null. -/
def idJson (id : Nat) : Json := (RowId.number? id).elim .null .number

def linkMembers (id : Nat) : Option ParentLink → List (String × Json)
  | none => [(idColumn, idJson id)]
  | some parent =>
    [(idColumn, idJson id), (parentIdColumn, idJson parent.id),
      (parentTableColumn, .string parent.table)]

mutual

def toJson : Row → Json
  | ⟨_, id, parent, columns, childTables, children⟩ =>
    let below := eachToJson children
    .object (linkMembers id parent ++ columns.map (fun entry => (entry.1, entry.2.toJson)) ++
      childTables.map fun child => (child, .array (pick child below)))

def eachToJson : List Row → List (String × Json)
  | [] => []
  | row :: rows => (row.table, toJson row) :: eachToJson rows

end

def text (row : Row) : String := row.toJson.compact

end Row

end SurveyTables
