import SurveyTables.Proofs.Form.Declaration
import SurveyTables.Proofs.Layout.WellFormed

/-! The tables of a form's layout, told from the form alone: which tables there are and in which
order, the columns that each begins with, and which tables hold the rows of which others. -/
namespace SurveyTables

namespace Form

def repeatDeclarations (form : Form) : List Declaration :=
  form.declarations.filter (·.field.kind = .repeatGroup)

theorem mem_repeatDeclarations {form : Form} {declaration : Declaration} :
    declaration ∈ form.repeatDeclarations ↔
      form.Declares declaration ∧ declaration.field.kind = .repeatGroup := by
  rw [repeatDeclarations, List.mem_filter, mem_declarations, decide_eq_true_eq]

theorem pairwise_repeatDeclarations (form : Form) :
    form.repeatDeclarations.Pairwise fun d e => d.address < e.address :=
  form.pairwise_declarations.filter _

theorem repeats_eq (form : Form) :
    form.repeats = form.repeatDeclarations.map fun d => (d.inside, d.field.path) := by
  have each (declaration : Declaration) : declaration.met?.bind Entry.repeat? =
      if declaration.field.kind = .repeatGroup then
        some (declaration.inside, declaration.field.path) else none := by
    by_cases kind : declaration.field.kind = .repeatGroup
    · simp [Declaration.met?, Entry.repeat?, kind]
    · by_cases silent : declaration.field.kind = .note ∨ declaration.field.kind = .group
      · simp [Declaration.met?, silent, kind]
      · simp [Declaration.met?, Entry.repeat?, silent, kind]
  rw [repeats, Entry.repeats, entries_eq_filterMap, List.filterMap_filterMap, repeatDeclarations]
  induction form.declarations with
  | nil => rfl
  | cons first rest ih =>
    rw [List.filterMap_cons, each, List.filter_cons]
    split <;> simp_all

theorem mem_repeats {form : Form} {inside : Option String} {path : String} :
    (inside, path) ∈ form.repeats ↔ ∃ declaration, form.Declares declaration ∧
      declaration.field.kind = .repeatGroup ∧ declaration.inside = inside ∧
        declaration.field.path = path := by
  simp [repeats_eq, mem_repeatDeclarations, and_assoc]

end Form

namespace Layout

/-- The tables that a form calls for. -/
structure Tabulates (form : Form) (layout : Layout) : Prop where
  /-- the root table, then one table for each repeat path, by the first field that declares it -/
  tables : ∃ declared : List Declaration,
    (∀ d, d ∈ declared ↔ form.Declares d ∧ d.field.kind = .repeatGroup) ∧
      declared.Pairwise (fun d e => d.address < e.address) ∧
      layout.tables.map Table.repeatPath =
        none :: (declared.map fun d => d.field.path).eraseDups.map some
  rootColumns : ∀ root : Table, layout.tables[0]? = some root → ∃ own,
    root.schema.columns = ⟨"_id", .int, "_id"⟩ :: own ∧
      ∀ column ∈ own, column.id ∉ ["_id", "__parent_id", "__parent_table"]
  columns : ∀ (place : Nat) (table : Table), layout.tables[place + 1]? = some table → ∃ own,
    table.schema.columns = ⟨"_id", .int, "_id"⟩ :: ⟨"__parent_id", .int, "__parent_id"⟩ ::
        ⟨"__parent_table", .string, "__parent_table"⟩ :: own ∧
      ∀ column ∈ own, column.id ∉ ["_id", "__parent_id", "__parent_table"]
  /-- a table binds the rows of the tables whose paths are declared in it -/
  rows : ∀ (i j : Nat) (table child : Table),
    layout.tables[i]? = some table → layout.tables[j]? = some child →
    ((∃ path, .rows path j ∈ table.bindings) ↔ ∃ d, form.Declares d ∧
      d.field.kind = .repeatGroup ∧ d.inside = table.repeatPath ∧
        child.repeatPath = some d.field.path)

theorem repeatPaths_infer (form : Form) : (infer form).tables.map Table.repeatPath =
    none :: (form.repeatDeclarations.map fun d => d.field.path).eraseDups.map some := by
  have paths : Entry.paths form.entries =
      form.repeatDeclarations.map fun d => d.field.path := by
    rw [Entry.paths, ← Form.repeats, Form.repeats_eq, List.map_map]
    rfl
  rw [← paths]
  exact laid_infer form

theorem exists_columns_eq (form : Form) {table : Table} (member : table ∈ (infer form).tables) :
    ∃ own, table.schema.columns = Table.linkageOf table.repeatPath ++ own ∧
      ∀ column ∈ own, column.id ∉ linkColumns := by
  have valid := wellNamed_infer form table member
  refine ⟨table.fieldColumns, valid.columns, fun column own => ?_⟩
  exact valid.not_mem_linkColumns (List.mem_map_of_mem own)

theorem tabulates_infer (form : Form) : Tabulates form (infer form) where
  tables := ⟨form.repeatDeclarations, fun _ => Form.mem_repeatDeclarations,
    form.pairwise_repeatDeclarations, repeatPaths_infer form⟩
  rootColumns := by
    intro root found
    obtain ⟨own, columns, apart⟩ := exists_columns_eq form (mem_tables_of_table? found)
    obtain rfl : (infer form).root = root := Option.some.inj found
    rw [(laid_infer form).root] at columns
    exact ⟨own, columns, apart⟩
  columns := by
    intro place table found
    obtain ⟨own, columns, apart⟩ := exists_columns_eq form (mem_tables_of_table? found)
    obtain ⟨path, below⟩ := exists_repeatPath form found
    rw [below] at columns
    exact ⟨own, columns, apart⟩
  rows := by
    intro i j table child found found'
    have member := mem_tables_of_table? found
    constructor
    · rintro ⟨path, bound⟩
      have bound := Table.mem_repeats.2 bound
      obtain ⟨other, at?, own⟩ := exists_table_of_mem_repeats form member bound
      obtain rfl : other = child := Option.some.inj (at?.symm.trans found')
      obtain ⟨d, declared, kind, inside, rfl⟩ :=
        Form.mem_repeats.1 ((exists_mem_repeats_iff form member).1 ⟨j, bound⟩)
      exact ⟨d, declared, kind, inside, own⟩
    · rintro ⟨d, declared, kind, inside, own⟩
      have known : (table.repeatPath, d.field.path) ∈ form.repeats :=
        Form.mem_repeats.2 ⟨d, declared, kind, inside, rfl⟩
      obtain ⟨place, bound⟩ := (exists_mem_repeats_iff form member).2 known
      obtain ⟨other, at?, own'⟩ := exists_table_of_mem_repeats form member bound
      obtain rfl := (laid_infer form).place_unique at? found' (own'.trans own.symm)
      exact ⟨d.field.path, Table.mem_repeats.1 bound⟩

end Layout

end SurveyTables
