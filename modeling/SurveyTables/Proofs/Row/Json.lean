import SurveyTables.Proofs.Json.Tree
import SurveyTables.Proofs.Row.Tree

/-! What a value says of a row. A written row says all of it: every key in its place, every cell
with all its digits, and the rows of every child table in order. -/
namespace SurveyTables

/-- A value that holds the content of a cell. -/
inductive Cell.ReadsAs : Cell → Json → Prop
  | null : ReadsAs .null .null
  | int {n : Int} {number : Json.Number} (digits : number.text = Text.intNumeral n) :
      ReadsAs (.int n) (.number number)
  | text (s : String) : ReadsAs (.text s) (.string s)

namespace Row

def keys (row : Row) : List String :=
  row.parent.elim [idColumn] (fun _ => linkColumns) ++ row.columns.keys ++ row.childTables

/-- A value that holds the content of a row: its keys in order, each once, the values of its
columns, and in the place of each child table the rows that stand there. -/
inductive ReadsAs : Row → Json → Prop
  | object {row : Row} {members : List (String × Json)} (items : String → List Json)
      (keys : members.map Prod.fst = row.keys) (distinct : row.keys.Nodup)
      (cells : ∀ column cell, row.get? column = some cell →
        ∃ value, Keyed.get? members column = some value ∧ cell.ReadsAs value)
      (lists : ∀ table ∈ row.childTables,
        Keyed.get? members table = some (.array (items table)))
      (rows : ∀ table ∈ row.childTables,
        List.Forall₂ ReadsAs (row.childrenIn table) (items table)) :
      ReadsAs row (.object members)

theorem eachToJson_eq (rows : List Row) :
    eachToJson rows = rows.map fun row => (row.table, row.toJson) := by
  induction rows with
  | nil => rfl
  | cons row rows ih => rw [eachToJson, ih, List.map_cons]

def members (row : Row) : List (String × Json) :=
  linkMembers row.id row.parent ++ row.columns.map (fun entry => (entry.1, entry.2.toJson)) ++
    row.childTables.map fun table => (table, .array ((row.childrenIn table).map toJson))

theorem toJson_eq (row : Row) : row.toJson = .object row.members := by
  obtain ⟨table, id, parent, columns, childTables, children⟩ := row
  simp [toJson, members, eachToJson_eq, pick_map, childrenIn]

end Row

end SurveyTables
