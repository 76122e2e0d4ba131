import SurveyTables.Proofs.Flatten.Cells
import SurveyTables.Proofs.Flatten.Provenance

/-! Rows and schemas. Names of columns are made twice, when a layout is inferred and when a row is
filled; every row of an export agrees with the inferred schema of its table. -/
namespace SurveyTables

/-- What a program that imports a table by its schema relies on in each of its rows. Link
columns hold numbers of any size. -/
structure Row.Agrees (row : Row) (schema : TableSchema) : Prop where
  name : row.table = schema.name
  keys : row.columns.keys = schema.columnIds.filter (· ∉ linkColumns)
  present : ∀ column ∈ schema.columns, (row.get? column.id).isSome
  typed : ∀ column ∈ schema.columns, ∀ cell,
    row.columns.get? column.id = some cell → column.type.admits cell = true
  linked : ∀ column ∈ schema.columns, column.id ∈ linkColumns →
    (column.type = .int ∧ ∃ n : Nat, row.get? column.id = some (.int n)) ∨
    (column.type = .string ∧ ∃ name, row.get? column.id = some (.text name))

namespace Exporter

variable {form : Form} {baseUrl : String} {submission : Submission} {row : Row} {table : Table}
  {answers : Keyed Json}

theorem BuiltFrom.linked (built : BuiltFrom (ofForm form baseUrl) submission row table answers)
    {column : Column} (link : column ∈ Table.linkageOf table.repeatPath) :
    (column.type = .int ∧ ∃ n : Nat, row.get? column.id = some (.int n)) ∨
    (column.type = .string ∧ ∃ name, row.get? column.id = some (.text name)) := by
  cases path : table.repeatPath with
  | none =>
    rw [path] at link
    obtain rfl := List.mem_singleton.1 link
    exact .inl ⟨rfl, row.id, Row.get?_idColumn row⟩
  | some path' =>
    obtain ⟨parent, linked⟩ := built.exists_parent (by rw [path]; simp)
    rw [path] at link
    simp only [Table.linkageOf, List.mem_cons, List.not_mem_nil, or_false] at link
    rcases link with rfl | rfl | rfl
    · exact .inl ⟨rfl, row.id, Row.get?_idColumn row⟩
    · exact .inl ⟨rfl, parent.id, by rw [Column.named, Row.get?_parentIdColumn, linked]; rfl⟩
    · refine .inr ⟨rfl, parent.table, ?_⟩
      rw [Column.named, Row.get?_parentTableColumn, linked]
      rfl

theorem BuiltFrom.keys_eq (built : BuiltFrom (ofForm form baseUrl) submission row table answers) :
    row.columns.keys = table.fieldNames := by
  have valid := Layout.wellNamed_infer form table built.mem_tables
  rw [built.columns_eq, valid.keys_cells]

theorem BuiltFrom.present (built : BuiltFrom (ofForm form baseUrl) submission row table answers)
    {column : Column} (member : column ∈ table.schema.columns) : (row.get? column.id).isSome := by
  have valid := Layout.wellNamed_infer form table built.mem_tables
  rcases valid.mem_columns member with link | ⟨-, named⟩
  · rcases built.linked link with ⟨-, n, value⟩ | ⟨-, name, value⟩ <;> rw [value] <;> rfl
  · rw [Row.get?_of_not_mem_linkColumns (valid.not_mem_linkColumns named), Keyed.get?_isSome_iff,
      built.keys_eq]
    exact named

theorem BuiltFrom.typed (built : BuiltFrom (ofForm form baseUrl) submission row table answers)
    {column : Column} (member : column ∈ table.schema.columns) {cell : Cell}
    (value : row.columns.get? column.id = some cell) : column.type.admits cell = true := by
  have valid := Layout.wellNamed_infer form table built.mem_tables
  have cells := valid.forall₂_cells ((ofForm form baseUrl).origin submission) answers
  rw [← built.columns_eq] at cells
  obtain ⟨other, listed, same, admits⟩ :=
    Sequence.exists_of_mem_right cells (Keyed.mem_of_get? value)
  have named : column.id ∈ table.fieldNames := by
    rw [← built.keys_eq, ← Keyed.get?_isSome_iff, value]
    rfl
  rcases valid.mem_columns member with link | ⟨field, -⟩
  · exact absurd (Table.mem_linkColumns_of_linkageOf link) (valid.not_mem_linkColumns named)
  · obtain rfl := List.inj_on_of_nodup_map valid.nodup_fieldNames field listed same
    exact admits

theorem BuiltFrom.agrees (built : BuiltFrom (ofForm form baseUrl) submission row table answers) :
    row.Agrees table.schema := by
  have valid := Layout.wellNamed_infer form table built.mem_tables
  refine { name := built.table_eq, keys := ?keys, present := fun _ => built.present,
           typed := fun _ member _ => built.typed member, linked := ?linked }
  case keys => rw [built.keys_eq, valid.filter_columnIds]
  case linked =>
    intro column member link
    rcases valid.mem_columns member with linkage | ⟨-, named⟩
    · exact built.linked linkage
    · exact absurd link (valid.not_mem_linkColumns named)

/-- In every row of an export, at every depth, the columns are those of the one schema that the
layout of the form has for the row's table, with values of the types given there. -/
theorem agrees_of_flatten (form : Form) (baseUrl : String) (submission : Submission) (root : Row)
    (ok : (ofForm form baseUrl).flatten submission = .ok root) :
    ∀ row ∈ root.withDescendants, ∃ schema ∈ (Layout.infer form).schemas, row.Agrees schema ∧
      ∀ other ∈ (Layout.infer form).schemas, other.name = row.table → other = schema := by
  intro row member
  obtain ⟨table, answers, built⟩ := (BuiltFrom.of_flatten ok).exists_of_mem_withDescendants member
  refine ⟨table.schema, List.mem_map_of_mem built.mem_tables, built.agrees, ?_⟩
  intro other listed same
  obtain ⟨table', member', rfl⟩ := List.mem_map.1 listed
  have equal := (Layout.namesApart_infer form).eq_of_name member' built.mem_tables
    (same.trans built.table_eq)
  rw [equal]

/-- Two fields that are left out for their names, and a repeat group inside itself. -/
def census : Form where
  idString := "census"
  projectId := 7
  title := "Census"
  fields := [⟨"village", .text, [], []⟩, ⟨"village", .integer, [], []⟩, ⟨"_id", .text, [], []⟩,
    ⟨"crops", .selectMultiple, [⟨"maize", "Maize"⟩, ⟨"beans", "Beans"⟩], []⟩,
    ⟨"person", .repeatGroup, [], [⟨"person/age", .integer, [], []⟩,
      ⟨"person", .repeatGroup, [], []⟩]⟩]

def censusAnswers : Submission :=
  ⟨[("_id", .ofNat 3), ("village", .string "Kibera"), ("crops", .string "beans"),
    ("person", .array [.object [("person/age", .string "41"),
      ("person", .array [.object [("person/age", .string "none")]])]])]⟩

def censusRow : Row :=
  ⟨"data", 3, none,
    [("village", .text "Kibera"), ("crops_maize", .text "FALSE"), ("crops_beans", .text "TRUE")],
    ["person"],
    [⟨"person", 11, some ⟨3, "data"⟩, [("age", .int 41)], ["person"],
      [⟨"person", 79, some ⟨11, "person"⟩, [("age", .null)], ["person"], []⟩]⟩]⟩

theorem agrees_census :
    (ofForm census "").flatten censusAnswers = .ok censusRow ∧
      ∀ row ∈ censusRow.withDescendants, ∃ schema ∈ (Layout.infer census).schemas,
        row.Agrees schema ∧
          ∀ other ∈ (Layout.infer census).schemas, other.name = row.table → other = schema := by
  have ok : (ofForm census "").flatten censusAnswers = .ok censusRow := by
    rw [← flattenTo_eq_flatten 3]
    decide +kernel
  exact ⟨ok, agrees_of_flatten census "" censusAnswers censusRow ok⟩

end Exporter

end SurveyTables
