import SurveyTables.Proofs.Layout.Growth

/-! Forms that get further fields. The fields come behind those that are there, and the layout only
ever extends the tables that it has and opens others behind them. -/
namespace SurveyTables

/-- The form with further fields behind its own. -/
def Form.extend (form : Form) (fields : List Field) : Form :=
  { form with fields := form.fields ++ fields }

theorem Form.entries_extend (form : Form) (fields : List Field) :
    (form.extend fields).entries = form.entries ++ Field.listEntries none fields :=
  Field.listEntries_append none form.fields fields

/-- The schema of the same table, with more columns behind those of the old one. -/
structure TableSchema.Extends (old new : TableSchema) : Prop where
  name : new.name = old.name
  connectionName : new.connectionName = old.connectionName
  columns : old.columns <+: new.columns

namespace Table

/-- The same table, with more columns and bindings behind those of the old one. -/
structure Extends (old new : Table) : Prop where
  schema : old.schema.Extends new.schema
  repeatPath : new.repeatPath = old.repeatPath
  bindings : old.bindings <+: new.bindings

theorem Extends.refl (table : Table) : table.Extends table :=
  ⟨⟨rfl, rfl, List.prefix_rfl⟩, rfl, List.prefix_rfl⟩

theorem Extends.trans {first second third : Table} (before : first.Extends second)
    (after : second.Extends third) : first.Extends third where
  schema := ⟨after.schema.name.trans before.schema.name,
    after.schema.connectionName.trans before.schema.connectionName,
    before.schema.columns.trans after.schema.columns⟩
  repeatPath := after.repeatPath.trans before.repeatPath
  bindings := before.bindings.trans after.bindings

theorem extends_addField (table : Table) (field : Field) :
    table.Extends (table.addField field) := by
  unfold addField
  dsimp only
  split
  · exact ⟨⟨rfl, rfl, List.prefix_append ..⟩, rfl, List.prefix_append ..⟩
  · exact .refl table

theorem extends_reserve (table : Table) (child : String) : table.Extends (table.reserve child) :=
  ⟨⟨rfl, rfl, List.prefix_rfl⟩, rfl, List.prefix_rfl⟩

theorem extends_bindRows (table : Table) (path : String) (child : Nat) :
    table.Extends (table.bindRows path child) :=
  ⟨⟨rfl, rfl, List.prefix_rfl⟩, rfl, List.prefix_append ..⟩

end Table

namespace Layout

def Extends (old new : Layout) : Prop :=
  ∀ place table, old.table? place = some table →
    ∃ table', new.table? place = some table' ∧ table.Extends table'

theorem Extends.refl (layout : Layout) : layout.Extends layout :=
  fun _ table found => ⟨table, found, .refl table⟩

theorem Extends.trans {first second third : Layout} (before : first.Extends second)
    (after : second.Extends third) : first.Extends third := by
  intro place table found
  obtain ⟨middle, found, earlier⟩ := before place table found
  obtain ⟨last, found, later⟩ := after place middle found
  exact ⟨last, found, earlier.trans later⟩

theorem extends_modifyTable {f : Table → Table} (grows : ∀ table : Table, table.Extends (f table))
    (layout : Layout) (changed : Nat) : layout.Extends (layout.modifyTable changed f) := by
  intro place table found
  rw [table?_modifyTable, found, Option.map_some]
  refine ⟨_, rfl, ?_⟩
  split
  · exact grows table
  · exact .refl table

theorem extends_append (layout : Layout) (opened : Table) :
    layout.Extends (layout.append opened) := by
  intro place table found
  have inside := lt_length_of_table? found
  exact ⟨table, by rw [table?_append, if_neg (Nat.ne_of_lt inside), found], .refl table⟩

theorem extends_openTable (connection path : String) (parent : Nat) (layout : Layout) :
    layout.Extends (openTable connection path parent layout).2 := by
  unfold openTable
  split
  · exact .refl layout
  · exact (extends_modifyTable (fun table => table.extends_reserve _) layout parent).trans
      (extends_append _ _)

theorem extends_enter (connection : String) (layout : Layout) (entry : Entry) :
    layout.Extends (layout.enter connection entry) := by
  unfold enter
  dsimp only
  split
  · exact (extends_openTable _ _ _ _).trans
      (extends_modifyTable (fun table => table.extends_bindRows _ _) _ _)
  · exact extends_modifyTable (fun table => table.extends_addField _) _ _

theorem extends_foldl_enter (connection : String) (layout : Layout) (entries : List Entry) :
    layout.Extends (entries.foldl (enter connection) layout) := by
  induction entries generalizing layout with
  | nil => exact .refl layout
  | cons entry entries ih => exact (extends_enter connection layout entry).trans (ih _)

theorem extends_infer (form : Form) (fields : List Field) :
    (infer form).Extends (infer (form.extend fields)) := by
  rw [infer_eq_foldl (form.extend fields), form.entries_extend, List.foldl_append,
    infer_eq_foldl form]
  exact extends_foldl_enter _ _ _

end Layout

end SurveyTables
