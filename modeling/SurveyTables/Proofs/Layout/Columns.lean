import SurveyTables.Proofs.Layout.Bindings

/-! The columns of tables. A table has its link columns and then, binding by binding, the columns
that its bindings fill; no name stands twice. -/
namespace SurveyTables

def Binding.columns : Binding → List Column
  | .scalar _ column type => [.named column type]
  | .media _ column => [.named column .string]
  | .selection _ fieldName choices =>
    (Selection.columns "" fieldName choices).map (Column.named · .string)
  | .position _ fieldName => (Geopoint.columns "" fieldName).map (Column.named · .string)
  | .rows _ _ => []

namespace Table

/-- The columns of a table without those that link its rows. -/
def fieldColumns (table : Table) : List Column := table.bindings.flatMap Binding.columns

def fieldNames (table : Table) : List String := table.fieldColumns.map Column.id

/-- A table's columns are those that its bindings fill, under names of which none stands twice
and all are taken. -/
structure WellNamed (table : Table) : Prop where
  columns : table.schema.columns = linkageOf table.repeatPath ++ table.fieldColumns
  distinct : (linkColumns ++ table.fieldNames).Nodup
  taken : ∀ name ∈ linkColumns ++ table.fieldNames, name ∈ table.taken

theorem mem_linkColumns_of_linkageOf {repeatPath : Option String} {column : Column}
    (link : column ∈ linkageOf repeatPath) : column.id ∈ linkColumns := by
  cases repeatPath with
  | none =>
    obtain rfl := List.mem_singleton.1 link
    simp [linkColumns, Column.named]
  | some path =>
    simp only [linkageOf, List.mem_cons, List.not_mem_nil, or_false] at link
    rcases link with rfl | rfl | rfl <;> simp [linkColumns, Column.named]

theorem WellNamed.nodup_fieldNames {table : Table} (valid : table.WellNamed) :
    table.fieldNames.Nodup :=
  (List.nodup_append'.1 valid.distinct).2.1

theorem WellNamed.nodup_columns {table : Table} (valid : table.WellNamed) {binding : Binding}
    (bound : binding ∈ table.bindings) : (binding.columns.map Column.id).Nodup := by
  have part : binding.columns.Sublist table.fieldColumns := by
    rw [fieldColumns, List.flatMap_def]
    exact List.sublist_flatten_of_mem (List.mem_map_of_mem bound)
  exact valid.nodup_fieldNames.sublist (part.map Column.id)

theorem WellNamed.not_mem_linkColumns {table : Table} (valid : table.WellNamed) {name : String}
    (member : name ∈ table.fieldNames) : name ∉ linkColumns :=
  fun link => (List.nodup_append'.1 valid.distinct).2.2 link member

theorem WellNamed.mem_columns {table : Table} (valid : table.WellNamed) {column : Column}
    (member : column ∈ table.schema.columns) :
    column ∈ linkageOf table.repeatPath ∨
      column ∈ table.fieldColumns ∧ column.id ∈ table.fieldNames := by
  rw [valid.columns, List.mem_append] at member
  exact member.imp_right fun field => ⟨field, List.mem_map_of_mem field⟩

theorem WellNamed.filter_columnIds {table : Table} (valid : table.WellNamed) :
    table.schema.columnIds.filter (· ∉ linkColumns) = table.fieldNames := by
  have links : ((linkageOf table.repeatPath).map Column.id).filter (· ∉ linkColumns) = [] := by
    rw [List.filter_eq_nil_iff]
    intro name member
    obtain ⟨column, link, rfl⟩ := List.mem_map.1 member
    simpa using mem_linkColumns_of_linkageOf link
  have fields : table.fieldNames.filter (· ∉ linkColumns) = table.fieldNames := by
    rw [List.filter_eq_self]
    exact fun name member => by simpa using valid.not_mem_linkColumns member
  rw [TableSchema.columnIds, valid.columns, List.map_append, List.filter_append, links]
  exact fields

theorem columns_contribution (table : Table) (field : Field) :
    (table.contribution field).2.columns = (table.contribution field).1 := by
  obtain ⟨path, kind, choices, children⟩ := field
  cases kind <;> rfl

theorem canClaim_iff {table : Table} {names : List String} :
    table.canClaim names = true ↔ (∀ name ∈ names, name ∉ table.taken) ∧ names.Nodup := by
  simp [canClaim]

/-- A field is added with all its columns, under names that were free, or not at all. -/
theorem addField_cases (table : Table) (field : Field) :
    table.addField field = table ∨
      (∀ name ∈ (table.contribution field).1.map Column.id, name ∉ table.taken) ∧
      ((table.contribution field).1.map Column.id).Nodup ∧
      table.addField field =
        { table with
          schema := { table.schema with
            columns := table.schema.columns ++ (table.contribution field).1 }
          bindings := table.bindings ++ [(table.contribution field).2]
          taken := table.taken ++ (table.contribution field).1.map Column.id } := by
  by_cases free : table.canClaim ((table.contribution field).1.map Column.id) = true
  · obtain ⟨unused, distinct⟩ := canClaim_iff.1 free
    exact .inr ⟨unused, distinct, if_pos free⟩
  · exact .inl (if_neg free)

theorem wellNamed_start (name connection : String) (repeatPath : Option String) :
    (start name connection repeatPath).WellNamed where
  columns := by simp [start, fieldColumns]
  distinct := by
    change (linkColumns ++ []).Nodup
    decide
  taken := by
    intro name member
    simpa [start, fieldNames, fieldColumns] using member

theorem wellNamed_addField {table : Table} (valid : table.WellNamed) (field : Field) :
    (table.addField field).WellNamed := by
  rcases addField_cases table field with same | ⟨unused, distinct, added⟩
  · rw [same]
    exact valid
  have columns : (table.addField field).fieldColumns =
      table.fieldColumns ++ (table.contribution field).1 := by
    rw [added]
    simp [fieldColumns, columns_contribution]
  have names : linkColumns ++ (table.addField field).fieldNames =
      (linkColumns ++ table.fieldNames) ++ (table.contribution field).1.map Column.id := by
    rw [fieldNames, columns, List.map_append, List.append_assoc, fieldNames]
  constructor
  · rw [columns, added, valid.columns, List.append_assoc]
  · rw [names, List.nodup_append']
    refine ⟨valid.distinct, distinct, ?_⟩
    exact fun name member new => unused name new (valid.taken name member)
  · intro name member
    rw [names] at member
    rw [added]
    rcases List.mem_append.1 member with old | new
    · exact List.mem_append_left _ (valid.taken name old)
    · exact List.mem_append_right _ new

theorem fieldColumns_bindRows (table : Table) (path : String) (child : Nat) :
    (table.bindRows path child).fieldColumns = table.fieldColumns := by
  simp [fieldColumns, bindRows, Binding.columns]

theorem fieldNames_bindRows (table : Table) (path : String) (child : Nat) :
    (table.bindRows path child).fieldNames = table.fieldNames :=
  congrArg (List.map Column.id) (fieldColumns_bindRows table path child)

theorem wellNamed_bindRows {table : Table} (valid : table.WellNamed) (path : String)
    (child : Nat) : (table.bindRows path child).WellNamed := by
  constructor
  · rw [fieldColumns_bindRows]
    exact valid.columns
  · rw [fieldNames_bindRows]
    exact valid.distinct
  · rw [fieldNames_bindRows]
    exact valid.taken

theorem wellNamed_reserve {table : Table} (valid : table.WellNamed) (child : String) :
    (table.reserve child).WellNamed where
  columns := valid.columns
  distinct := valid.distinct
  taken name member := List.mem_append_left _ (valid.taken name member)

end Table

namespace Layout

theorem wellNamed_step {connection : String} {before : List Entry} {layout next : Layout}
    {entry : Entry} (step : Step connection before layout entry next)
    (valid : ∀ table ∈ layout.tables, table.WellNamed) :
    ∀ table ∈ next.tables, table.WellNamed := by
  cases step with
  | field => exact forall_mem_modifyTable valid fun table _ h => Table.wellNamed_addField h _
  | sharing => exact forall_mem_modifyTable valid fun table _ h => Table.wellNamed_bindRows h _ _
  | opening =>
    refine forall_mem_append (forall_mem_modifyTable valid fun table _ h => ?_)
      (Table.wellNamed_start ..)
    exact Table.wellNamed_bindRows (Table.wellNamed_reserve h _) _ _

theorem wellNamed_initial (connection : String) :
    ∀ table ∈ (initial connection).tables, table.WellNamed := by
  intro table member
  obtain rfl := List.mem_singleton.1 member
  exact Table.wellNamed_start ..

theorem wellNamed_infer (form : Form) : ∀ table ∈ (infer form).tables, table.WellNamed :=
  infer_induction form (wellNamed_initial _) fun _ _ _ _ _ _ step valid => wellNamed_step step valid

/-- The induction over a form's walk, for invariants that rest on the names of columns. -/
@[elab_as_elim]
theorem infer_induction_wellNamed {P : List Entry → Layout → Prop} (form : Form)
    (start : P [] (initial form.connectionName))
    (step : ∀ before entry layout next, Entry.Placed before → Laid before layout →
      (∀ table ∈ layout.tables, table.WellNamed) →
      Step form.connectionName before layout entry next → P before layout →
      P (before ++ [entry]) next) :
    P form.entries (infer form) := by
  have both : (∀ table ∈ (infer form).tables, table.WellNamed) ∧ P form.entries (infer form) := by
    refine infer_induction form ⟨wellNamed_initial _, start⟩ ?_
    rintro before entry layout next placed laid grows ⟨named, holds⟩
    exact ⟨wellNamed_step grows named, step before entry layout next placed laid named grows holds⟩
  exact both.2

end Layout

end SurveyTables
