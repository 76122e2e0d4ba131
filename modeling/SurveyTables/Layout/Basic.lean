import SurveyTables.Layout.Table

/-! The layout of an export: the root table, then one table for each repeat path of the form,
in the order in which a walk through the form meets them. -/
namespace SurveyTables

structure Layout where
  root : Table
  others : List Table
deriving DecidableEq, Repr

namespace Layout

/-- The tables, the root table first; a table's place is counted from nought. -/
def tables (layout : Layout) : List Table := layout.root :: layout.others

def names (layout : Layout) : List String := layout.tables.map Table.name

def schemas (layout : Layout) : List TableSchema := layout.tables.map Table.schema

def table? (layout : Layout) (place : Nat) : Option Table := layout.tables[place]?

def schema? (layout : Layout) (name : String) : Option TableSchema :=
  (layout.tables.find? (·.name = name)).map Table.schema

/-- The table name that a repeat group suggests: its own name in lower case, with an underscore for
each character that is no letter a to z, digit or underscore. -/
def suggestedName (name : String) : String :=
  String.ofList (name.toList.map fun c =>
    let c := c.toLower
    if c.isAlphanum || c = '_' then c else '_')

def numbered (name : String) (n : Nat) : String := name ++ "_" ++ Text.natNumeral n

/-- The name itself if it is not in use, else the name with the least number from two on
that makes it free. Among as many numbers as there are names in use, one is free. -/
def freeName (used : List String) (name : String) : String :=
  if used.contains name then
    (((List.range' 2 used.length).map (numbered name)).find? (!used.contains ·)).getD name
  else name

def usedNames (layout : Layout) (parent : Nat) : List String :=
  layout.names ++ (layout.table? parent).elim [] Table.taken

def modifyTable (layout : Layout) (place : Nat) (f : Table → Table) : Layout :=
  match place with
  | 0 => { layout with root := f layout.root }
  | place + 1 => { layout with others := layout.others.modify place f }

theorem tables_modifyTable (layout : Layout) (place : Nat) (f : Table → Table) :
    (layout.modifyTable place f).tables = layout.tables.modify place f := by
  cases place <;> rfl

def append (layout : Layout) (table : Table) : Layout :=
  { layout with others := layout.others ++ [table] }

theorem tables_append (layout : Layout) (table : Table) :
    (layout.append table).tables = layout.tables ++ [table] := rfl

def placeOf? (layout : Layout) (repeatPath : String) : Option Nat :=
  layout.tables.findIdx? (·.repeatPath = some repeatPath)

/-- The place of the table for a repeat path, and the layout with that table. A path that
has a table already shares it, whatever parent it was first met in. -/
def openTable (connection : String) (path : String) (parent : Nat) (layout : Layout) :
    Nat × Layout :=
  match layout.placeOf? path with
  | some place => (place, layout)
  | none =>
    let name := freeName (layout.usedNames parent) (suggestedName (Text.leaf path))
    let opened := Table.start name (connection ++ "_" ++ name) (some path)
    (layout.tables.length, (layout.modifyTable parent (·.reserve name)).append opened)

mutual

def addField (connection : String) (place : Nat) : Field → Layout → Layout
  | ⟨path, kind, choices, children⟩, layout =>
    if kind.carriesData then
      match kind with
      | .group => addFields connection place children layout
      | .repeatGroup =>
        let (child, layout) := openTable connection path place layout
        addFields connection child children (layout.modifyTable place (·.bindRows path child))
      | _ => layout.modifyTable place (·.addField ⟨path, kind, choices, children⟩)
    else layout

def addFields (connection : String) (place : Nat) : List Field → Layout → Layout
  | [], layout => layout
  | field :: fields, layout =>
    addFields connection place fields (addField connection place field layout)

end

def infer (form : Form) : Layout :=
  addFields form.connectionName 0 form.fields
    ⟨Table.start rootName form.connectionName none, []⟩

end Layout

end SurveyTables
