import Mathlib.Data.List.Forall2
import SurveyTables.Flatten
import SurveyTables.Proofs.Layout.Columns

/-! The cells of a row. Each binding fills just the columns that it stands for, in order and each
with a cell of its type; so a row has the columns of its table. -/
namespace SurveyTables

/-- Which cells a column of a type may hold. -/
def ColumnType.admits : ColumnType → Cell → Bool
  | _, .null => true
  | .int, .int n => Text.fitsInt64 n
  | .string, .text _ => true
  | _, _ => false

namespace Cell

theorem fits_of_int64? {number : Json.Number} {n : Int} (h : number.int64? = some n) :
    Text.fitsInt64 n = true := by
  unfold Json.Number.int64? at h
  split at h
  · next plain =>
    obtain rfl := Option.some.inj h
    exact (Bool.and_eq_true_iff.1 plain).2
  · contradiction

theorem fits_of_roundedInt64? {number : Json.Number} {n : Int}
    (h : roundedInt64? number = some n) : Text.fitsInt64 n = true := by
  simp only [roundedInt64?, Option.bind_eq_bind, Option.bind_eq_some_iff] at h
  obtain ⟨nearest, -, magnitude, -, h⟩ := h
  split at h
  · next small =>
    obtain rfl := Option.some.inj h
    simp only [Text.fitsInt64, Bool.and_eq_true, decide_eq_true_eq]
    split <;> omega
  · contradiction

theorem fits_of_integer? {answer : Json} {n : Int} (h : integer? answer = some n) :
    Text.fitsInt64 n = true := by
  cases answer with
  | number number =>
    rcases Option.or_eq_some_iff.1 h with exact | ⟨-, rounded⟩
    · exact fits_of_int64? exact
    · exact fits_of_roundedInt64? rounded
  | string s =>
    obtain ⟨-, fits⟩ := Option.filter_eq_some_iff.1 h
    exact fits
  | _ => contradiction

theorem admits_ofAnswer (type : ColumnType) (answer : Option Json) :
    type.admits (ofAnswer type answer) = true := by
  cases answer with
  | none => cases type <;> rfl
  | some answer =>
    cases type with
    | int =>
      simp only [ofAnswer, ofInteger]
      cases read : integer? answer with
      | none => rfl
      | some n => exact fits_of_integer? read
    | string => cases answer <;> rfl

end Cell

def Column.Fits (column : Column) (entry : String × Cell) : Prop :=
  entry.1 = column.id ∧ column.type.admits entry.2 = true

theorem Column.map_fst_of_fits {columns : List Column} {entries : List (String × Cell)}
    (fits : List.Forall₂ Column.Fits columns entries) :
    entries.map Prod.fst = columns.map Column.id :=
  (Sequence.map_eq_of_forall₂ fits fun _ _ fit => fit.1.symm).symm

/-- The flag of every choice is kept if the choices have columns of their own. -/
theorem Selection.flags_of_nodup {stem fieldName : String} {choices : List String}
    (distinct : (columns stem fieldName choices).Nodup) (picked : List String) :
    flags stem fieldName choices picked =
      choices.map fun choice => (column stem fieldName choice, flag picked choice) :=
  Keyed.ofList_of_nodup (by simpa [columns, Function.comp_def] using distinct)

namespace Binding

theorem fits_named {columns : List String} {cell : String → Cell}
    (texts : ∀ column, ColumnType.string.admits (cell column) = true) :
    List.Forall₂ Column.Fits (columns.map (Column.named · .string))
      (columns.map fun column => (column, cell column)) := by
  rw [List.forall₂_map_left_iff, List.forall₂_map_right_iff, List.forall₂_same]
  exact fun column _ => ⟨rfl, texts column⟩

theorem fits_zip {columns values : List String} (length : columns.length = values.length) :
    List.Forall₂ Column.Fits (columns.map (Column.named · .string))
      ((columns.zip values).map fun entry => (entry.1, .text entry.2)) := by
  induction columns generalizing values with
  | nil => exact .nil
  | cons column columns ih =>
    cases values with
    | nil => simp at length
    | cons value values => exact .cons ⟨rfl, rfl⟩ (ih (Nat.succ.inj length))

/-- A binding fills its columns, if no two of them have one name. -/
theorem forall₂_cells (origin : Origin) (answers : Keyed Json) (binding : Binding)
    (distinct : (binding.columns.map Column.id).Nodup) :
    List.Forall₂ Column.Fits binding.columns (binding.cells origin answers) := by
  cases binding with
  | scalar path column type => exact .cons ⟨rfl, Cell.admits_ofAnswer ..⟩ .nil
  | media path column =>
    simp only [cells, columns]
    split
    · exact .cons ⟨rfl, rfl⟩ .nil
    · exact .cons ⟨rfl, Cell.admits_ofAnswer ..⟩ .nil
  | selection path fieldName choices =>
    have names : ((choices.map (Selection.column "" fieldName)).map (Column.named · .string)).map
        Column.id = choices.map (Selection.column "" fieldName) := by
      simp [Column.named, Function.comp_def]
    rw [columns, Selection.columns, names] at distinct
    simp only [cells, columns]
    split
    · exact fits_named fun _ => rfl
    · exact fits_named fun _ => rfl
    · next stored _ _ =>
      rw [Selection.flags_of_nodup distinct, Selection.columns]
      simp only [List.map_map, List.forall₂_map_left_iff, List.forall₂_map_right_iff,
        List.forall₂_same]
      exact fun choice _ => ⟨rfl, rfl⟩
  | position path fieldName =>
    simp only [cells, columns]
    split
    · next stored _ =>
      have length : (Geopoint.columns "" fieldName).length = (Geopoint.words stored).length := by
        simp [Geopoint.columns, Geopoint.words]
      have kept : Geopoint.unpack "" fieldName stored =
          (Geopoint.columns "" fieldName).zip (Geopoint.words stored) := by
        apply Keyed.ofList_of_nodup
        rw [List.map_fst_zip (Nat.le_of_eq length)]
        simpa [columns, Column.named, Function.comp_def] using distinct
      rw [kept]
      exact fits_zip length
    · exact fits_named fun _ => rfl
  | rows path table => exact .nil

end Binding

namespace Table

theorem forall₂_flatMap_cells (origin : Origin) (answers : Keyed Json) (bindings : List Binding)
    (distinct : ((bindings.flatMap Binding.columns).map Column.id).Nodup) :
    List.Forall₂ Column.Fits (bindings.flatMap Binding.columns)
      (bindings.flatMap (·.cells origin answers)) := by
  induction bindings with
  | nil => exact .nil
  | cons binding rest ih =>
    rw [List.flatMap_cons, List.map_append, List.nodup_append'] at distinct
    obtain ⟨here, later, -⟩ := distinct
    rw [List.flatMap_cons, List.flatMap_cons]
    exact List.rel_append (binding.forall₂_cells origin answers here) (ih later)

theorem WellNamed.cells_eq {table : Table} (valid : table.WellNamed) (origin : Origin)
    (answers : Keyed Json) :
    table.cells origin answers = table.bindings.flatMap (·.cells origin answers) := by
  have fits := forall₂_flatMap_cells origin answers table.bindings valid.nodup_fieldNames
  apply Keyed.ofList_of_nodup
  rw [Column.map_fst_of_fits fits]
  exact valid.nodup_fieldNames

theorem WellNamed.forall₂_cells {table : Table} (valid : table.WellNamed) (origin : Origin)
    (answers : Keyed Json) :
    List.Forall₂ Column.Fits table.fieldColumns (table.cells origin answers) := by
  rw [valid.cells_eq]
  exact forall₂_flatMap_cells origin answers table.bindings valid.nodup_fieldNames

theorem WellNamed.keys_cells {table : Table} (valid : table.WellNamed) (origin : Origin)
    (answers : Keyed Json) : (table.cells origin answers).keys = table.fieldNames :=
  Column.map_fst_of_fits (valid.forall₂_cells origin answers)

theorem WellNamed.get?_cells {table : Table} (valid : table.WellNamed) {origin : Origin}
    {answers : Keyed Json} {binding : Binding} (bound : binding ∈ table.bindings) {name : String}
    {cell : Cell} (given : (name, cell) ∈ binding.cells origin answers) :
    (table.cells origin answers).get? name = some cell := by
  refine Keyed.get?_eq_some ?_ ?_
  · rw [valid.keys_cells]
    exact valid.nodup_fieldNames
  · rw [valid.cells_eq]
    exact List.mem_flatMap.2 ⟨binding, bound, given⟩

end Table

end SurveyTables
