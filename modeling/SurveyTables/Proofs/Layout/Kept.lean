import SurveyTables.Proofs.Layout.Bindings
import SurveyTables.Proofs.Layout.Columns

/-! The paths at which the tables of a layout read. They are those of the repeat groups that the
form declares in a table and of the fields that the table keeps; a field that was left out for
its names is not read, nor is a note. -/
namespace SurveyTables

def Binding.path : Binding → String
  | .scalar path _ _ | .media path _ | .selection path _ _ | .position path _ | .rows path _ => path

namespace Table

/-- The field has its columns in the table, and the binding that fills them. -/
structure Keeps (table : Table) (field : Field) : Prop where
  columns : ∀ column ∈ (table.contribution field).1, column ∈ table.schema.columns
  binding : (table.contribution field).2 ∈ table.bindings

instance (table : Table) (field : Field) : Decidable (table.Keeps field) :=
  decidable_of_iff ((∀ column ∈ (table.contribution field).1, column ∈ table.schema.columns) ∧
      (table.contribution field).2 ∈ table.bindings)
    ⟨fun ⟨columns, binding⟩ => ⟨columns, binding⟩, fun keeps => ⟨keeps.columns, keeps.binding⟩⟩

theorem path_contribution (table : Table) (field : Field) :
    (table.contribution field).2.path = field.path := by
  obtain ⟨path, kind, choices, children⟩ := field
  cases kind <;> rfl

theorem contribution_congr {table other : Table} (same : other.repeatPath = table.repeatPath)
    (field : Field) : other.contribution field = table.contribution field := by
  simp only [contribution, baseName, same]

theorem Keeps.of_subset {table other : Table} {field : Field} (keeps : table.Keeps field)
    (same : other.repeatPath = table.repeatPath)
    (columns : ∀ column ∈ table.schema.columns, column ∈ other.schema.columns)
    (bindings : ∀ binding ∈ table.bindings, binding ∈ other.bindings) : other.Keeps field where
  columns column member := by
    rw [contribution_congr same] at member
    exact columns column (keeps.columns column member)
  binding := by
    rw [contribution_congr same]
    exact bindings _ keeps.binding

/-- Every binding that is no repeat group is that of a field that was met in this table. -/
def Accounted (before : List Entry) (table : Table) : Prop :=
  ∀ binding ∈ table.bindings, binding.rows? = none →
    ∃ entry ∈ before, entry.inside = table.repeatPath ∧ entry.field.path = binding.path ∧
      table.Keeps entry.field

theorem Accounted.snoc {before : List Entry} {table : Table} (accounted : table.Accounted before)
    (entry : Entry) : table.Accounted (before ++ [entry]) := by
  intro binding member plain
  obtain ⟨other, met, rest⟩ := accounted binding member plain
  exact ⟨other, List.mem_append_left _ met, rest⟩

theorem accounted_addField {before : List Entry} {table : Table} {entry : Entry}
    (accounted : table.Accounted before) (own : table.repeatPath = entry.inside) :
    (table.addField entry.field).Accounted (before ++ [entry]) := by
  rcases addField_cases table entry.field with same | ⟨-, -, added⟩
  · rw [same]
    exact accounted.snoc entry
  have path : (table.addField entry.field).repeatPath = table.repeatPath := repeatPath_addField ..
  have columns : (table.addField entry.field).schema.columns =
      table.schema.columns ++ (table.contribution entry.field).1 := by rw [added]
  have bindings : (table.addField entry.field).bindings =
      table.bindings ++ [(table.contribution entry.field).2] := by rw [added]
  intro binding member plain
  rw [bindings] at member
  rw [path]
  rcases List.mem_append.1 member with old | new
  · obtain ⟨other, met, inside, same, keeps⟩ := accounted binding old plain
    refine ⟨other, List.mem_append_left _ met, inside, same, keeps.of_subset path ?_ ?_⟩
    · rw [columns]
      exact fun column => List.mem_append_left _
    · rw [bindings]
      exact fun binding => List.mem_append_left _
  · obtain rfl := List.mem_singleton.1 new
    refine ⟨entry, List.mem_append_right _ List.mem_cons_self, own.symm,
      (path_contribution ..).symm, ?_, ?_⟩
    · rw [contribution_congr path, columns]
      exact fun column => List.mem_append_right _
    · rw [contribution_congr path, bindings]
      exact List.mem_append_right _ List.mem_cons_self

theorem accounted_bindRows {before : List Entry} {table : Table}
    (accounted : table.Accounted before) (path : String) (child : Nat) :
    (table.bindRows path child).Accounted before := by
  intro binding member plain
  rcases List.mem_append.1 member with old | new
  · obtain ⟨entry, met, inside, same, keeps⟩ := accounted binding old plain
    exact ⟨entry, met, inside, same,
      keeps.of_subset rfl (fun _ => id) fun _ => List.mem_append_left _⟩
  · obtain rfl := List.mem_singleton.1 new
    contradiction

theorem accounted_reserve {before : List Entry} {table : Table}
    (accounted : table.Accounted before) (child : String) :
    (table.reserve child).Accounted before := by
  intro binding member plain
  obtain ⟨entry, met, inside, same, keeps⟩ := accounted binding member plain
  exact ⟨entry, met, inside, same, keeps.of_subset rfl (fun _ => id) fun _ => id⟩

theorem accounted_start (before : List Entry) (name connection : String)
    (repeatPath : Option String) : (start name connection repeatPath).Accounted before :=
  fun _ member => absurd member List.not_mem_nil

end Table

/-- A table reads at a path: the form declares a repeat group there, or a field that the table
keeps. -/
def Form.Reads (form : Form) (table : Table) (path : String) : Prop :=
  ∃ entry ∈ form.entries, entry.inside = table.repeatPath ∧ entry.field.path = path ∧
    (entry.field.kind = .repeatGroup ∨ table.Keeps entry.field)

namespace Layout

theorem accounted_step {connection : String} {before : List Entry} {layout next : Layout}
    {entry : Entry} (laid : Laid before layout) (step : Step connection before layout entry next)
    (accounted : ∀ table ∈ layout.tables, table.Accounted before) :
    ∀ table ∈ next.tables, table.Accounted (before ++ [entry]) := by
  have old : ∀ table ∈ layout.tables, table.Accounted (before ++ [entry]) :=
    fun table member => (accounted table member).snoc entry
  cases step with
  | @field _ table found own plain =>
    refine laid.forall_mem_modifyTable found (fun other member _ => old other member) ?_
    exact Table.accounted_addField (accounted table (mem_tables_of_table? found)) own
  | sharing =>
    exact forall_mem_modifyTable old fun table _ holds => Table.accounted_bindRows holds _ _
  | opening =>
    refine forall_mem_append (forall_mem_modifyTable old fun table _ holds => ?_)
      (Table.accounted_start _ _ _ _)
    exact Table.accounted_bindRows (Table.accounted_reserve holds _) _ _

theorem accounted_infer (form : Form) :
    ∀ table ∈ (infer form).tables, table.Accounted form.entries := by
  refine infer_induction form ?_ fun _ _ _ _ _ laid step valid => accounted_step laid step valid
  intro table member
  obtain rfl := List.mem_singleton.1 member
  exact Table.accounted_start _ _ _ _

theorem reads_iff (form : Form) {table : Table} (member : table ∈ (infer form).tables)
    {path : String} : form.Reads table path ↔ ∃ binding ∈ table.bindings, binding.path = path := by
  constructor
  · rintro ⟨entry, met, inside, rfl, repeats | keeps⟩
    · have declared : (table.repeatPath, entry.field.path) ∈ form.repeats :=
        List.mem_filterMap.2 ⟨entry, met, by rw [Entry.repeat?, if_pos repeats, inside]⟩
      obtain ⟨place, bound⟩ := (exists_mem_repeats_iff form member).2 declared
      exact ⟨_, Table.mem_repeats.1 bound, rfl⟩
    · exact ⟨_, keeps.binding, Table.path_contribution ..⟩
  · rintro ⟨binding, bound, rfl⟩
    cases rows : binding.rows? with
    | none =>
      obtain ⟨entry, met, inside, same, keeps⟩ := accounted_infer form table member binding bound rows
      exact ⟨entry, met, inside, same, .inr keeps⟩
    | some =>
      cases binding <;> cases rows
      next path place =>
      have declared := (exists_mem_repeats_iff form member).1 ⟨place, Table.mem_repeats.2 bound⟩
      obtain ⟨entry, met, inside, same, kind⟩ := Entry.exists_of_mem_repeats declared
      exact ⟨entry, met, inside, same, .inl kind⟩

end Layout

end SurveyTables
