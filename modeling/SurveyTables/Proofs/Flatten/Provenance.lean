import SurveyTables.Proofs.Flatten.Calls
import SurveyTables.Proofs.Layout.Names
import SurveyTables.Proofs.Row.Tree

/-! Where the rows of an export come from. Each row was made for one table out of one object of
answers, and the rows below it were made out of the elements which that object holds. -/
namespace SurveyTables.Exporter

def origin (exporter : Exporter) (submission : Submission) : Origin :=
  ⟨exporter, submission.instanceId?.getD 0, submission.attachments⟩

theorem flatten_ok_iff {exporter : Exporter} {submission : Submission} {root : Row} :
    exporter.flatten submission = .ok root ↔
      ∃ id : Nat, submission.instanceId? = some (id : Int) ∧
        Flatten.row (exporter.origin submission) exporter.layout.root submission.answers id none =
          .ok root := by
  unfold flatten origin
  split
  · next missing => simp [missing]
  · next n negative =>
    rw [negative]
    constructor
    · intro failed
      contradiction
    · rintro ⟨id, same, -⟩
      have := Option.some.inj same
      omega
  · next id known =>
    rw [known]
    constructor
    · exact fun call => ⟨id, rfl, call⟩
    · rintro ⟨id', same, call⟩
      obtain rfl := Int.ofNat.inj (Option.some.inj same)
      exact call

/-- A row of an export, the table that it is a row of, and the answers that it was made from:
those of the submission, or those of an element that a row above it holds. -/
inductive BuiltFrom (exporter : Exporter) (submission : Submission) :
    Row → Table → Keyed Json → Prop
  | root {id : Nat} {row : Row} (numbered : submission.instanceId? = some (id : Int))
      (call : Flatten.row (exporter.origin submission) exporter.layout.root submission.answers id
        none = .ok row) :
      BuiltFrom exporter submission row exporter.layout.root submission.answers
  | element {parent row : Row} {table child : Table} {answers below : Keyed Json} {path : String}
      {place ordinal : Nat} (above : BuiltFrom exporter submission parent table answers)
      (listed : (.item path place (.object below), ordinal) ∈ (table.elements answers).zipIdx 1)
      (found : exporter.layout.table? place = some child)
      (call : Flatten.row (exporter.origin submission) child below (RowId.pair parent.id ordinal)
        (some ⟨parent.id, parent.table⟩) = .ok row) :
      BuiltFrom exporter submission row child below

namespace BuiltFrom

variable {exporter : Exporter} {submission : Submission} {row : Row} {table : Table}
  {answers : Keyed Json}

theorem of_flatten (ok : exporter.flatten submission = .ok row) :
    BuiltFrom exporter submission row exporter.layout.root submission.answers := by
  obtain ⟨id, numbered, call⟩ := flatten_ok_iff.1 ok
  exact .root numbered call

theorem mem_tables (built : BuiltFrom exporter submission row table answers) :
    table ∈ exporter.layout.tables := by
  cases built with
  | root => exact Layout.root_mem_tables _
  | element _ _ found => exact Layout.mem_tables_of_table? found

theorem exists_call (built : BuiltFrom exporter submission row table answers) :
    ∃ parent, Flatten.row (exporter.origin submission) table answers row.id parent = .ok row := by
  cases built with
  | root numbered call =>
    obtain ⟨-, same, -⟩ := Flatten.fields_of_row call
    exact ⟨_, same ▸ call⟩
  | element above listed found call =>
    obtain ⟨-, same, -⟩ := Flatten.fields_of_row call
    exact ⟨_, same ▸ call⟩

theorem table_eq (built : BuiltFrom exporter submission row table answers) :
    row.table = table.name := by
  obtain ⟨parent, call⟩ := built.exists_call
  exact (Flatten.fields_of_row call).1

theorem columns_eq (built : BuiltFrom exporter submission row table answers) :
    row.columns = table.cells (exporter.origin submission) answers := by
  obtain ⟨parent, call⟩ := built.exists_call
  exact (Flatten.fields_of_row call).2.2.2.1

theorem childTables_eq (built : BuiltFrom exporter submission row table answers) :
    row.childTables = exporter.layout.childNames table := by
  obtain ⟨parent, call⟩ := built.exists_call
  exact (Flatten.fields_of_row call).2.2.2.2.1

theorem children_ok (built : BuiltFrom exporter submission row table answers) :
    Flatten.childRows (exporter.origin submission) ⟨row.id, row.table⟩ 1 (table.elements answers) =
      .ok row.children := by
  obtain ⟨parent, call⟩ := built.exists_call
  rw [built.table_eq]
  exact (Flatten.fields_of_row call).2.2.2.2.2

end BuiltFrom

/-- A row below `parent` and the element, with its ordinal, that it was made from. -/
inductive BuiltBelow (exporter : Exporter) (submission : Submission) (parent : Row)
    (table : Table) : Element × Nat → Row → Prop
  | mk {path : String} {place ordinal : Nat} {below : Keyed Json} {child : Table} {row : Row}
      (bound : (path, place) ∈ table.repeats)
      (found : exporter.layout.table? place = some child)
      (linked : row.parent = some ⟨parent.id, parent.table⟩)
      (numbered : row.id = RowId.pair parent.id ordinal)
      (built : BuiltFrom exporter submission row child below) :
      BuiltBelow exporter submission parent table (.item path place (.object below), ordinal) row

@[simp] theorem layout_ofForm (form : Form) (baseUrl : String) :
    (ofForm form baseUrl).layout = Layout.infer form := rfl

namespace BuiltFrom

variable {form : Form} {baseUrl : String} {submission : Submission} {row : Row} {table : Table}
  {answers : Keyed Json}

theorem exists_parent (built : BuiltFrom (ofForm form baseUrl) submission row table answers)
    (below : table.repeatPath ≠ none) : ∃ parent, row.parent = some parent := by
  cases built with
  | root => exact absurd (Layout.laid_infer form).root below
  | element above listed found call =>
    obtain ⟨-, -, linked, -⟩ := Flatten.fields_of_row call
    exact ⟨_, linked⟩

/-- One row below a row for each element that it holds, in order and numbered in order. -/
theorem forall₂_children (built : BuiltFrom (ofForm form baseUrl) submission row table answers) :
    List.Forall₂ (BuiltBelow (ofForm form baseUrl) submission row table)
      ((table.elements answers).zipIdx 1) row.children := by
  have member := built.mem_tables
  have resolved : Flatten.Resolved (Layout.infer form) (table.elements answers) := by
    intro path place value listed
    obtain ⟨bound, -⟩ := Table.mem_elements.1 listed
    obtain ⟨child, found, -⟩ := Layout.exists_table_of_mem_repeats form member bound
    exact ⟨child, found⟩
  have made := Flatten.forall₂_makes_of_childRows resolved built.children_ok
  have listed := (List.forall₂_and_left _ _).2 ⟨fun _ listed => listed, made⟩
  refine listed.imp ?_
  rintro _ child ⟨here, found, call⟩
  obtain ⟨bound, -⟩ := Table.mem_elements.1 (List.fst_mem_of_mem_zipIdx here)
  obtain ⟨-, numbered, linked, -⟩ := Flatten.fields_of_row call
  exact .mk bound found linked numbered (.element built here found call)

theorem forall₂_elements (built : BuiltFrom (ofForm form baseUrl) submission row table answers) :
    List.Forall₂ (fun element child =>
        ∃ ordinal, BuiltBelow (ofForm form baseUrl) submission row table (element, ordinal) child)
      (table.elements answers) row.children := by
  rw [← List.zipIdx_map_fst 1 (table.elements answers), List.forall₂_map_left_iff]
  exact built.forall₂_children.imp fun listed _ below => ⟨listed.2, below⟩

theorem exists_builtBelow (built : BuiltFrom (ofForm form baseUrl) submission row table answers)
    {child : Row} (member : child ∈ row.children) :
    ∃ listed, BuiltBelow (ofForm form baseUrl) submission row table listed child := by
  obtain ⟨listed, -, below⟩ := Sequence.exists_of_mem_right built.forall₂_children member
  exact ⟨listed, below⟩

/-- All rows made below a row stand in one of its child tables. -/
theorem mem_childRows_iff (built : BuiltFrom (ofForm form baseUrl) submission row table answers)
    {child : Row} : child ∈ row.childRows ↔ child ∈ row.children := by
  rw [Row.mem_childRows]
  constructor
  · exact And.left
  · intro member
    obtain ⟨_, bound, found, -, -, below⟩ := built.exists_builtBelow member
    refine ⟨member, ?_⟩
    rw [built.childTables_eq, below.table_eq, Layout.mem_childNames]
    exact ⟨_, _, _, bound, found, rfl⟩

theorem exists_of_mem_withDescendants
    (built : BuiltFrom (ofForm form baseUrl) submission row table answers) {other : Row}
    (member : other ∈ row.withDescendants) :
    ∃ table answers, BuiltFrom (ofForm form baseUrl) submission other table answers := by
  induction row using Row.induction generalizing table answers with
  | step row ih =>
    rcases Row.mem_withDescendants.1 member with rfl | ⟨child, isChild, below⟩
    · exact ⟨table, answers, built⟩
    · have inChildren := built.mem_childRows_iff.1 isChild
      obtain ⟨_, -, -, -, -, made⟩ := built.exists_builtBelow inChildren
      exact ih child inChildren made below

end BuiltFrom

end SurveyTables.Exporter
