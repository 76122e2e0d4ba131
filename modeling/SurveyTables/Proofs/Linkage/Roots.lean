import Mathlib.Data.List.Flatten
import SurveyTables.Proofs.Linkage.Numbers

/-! All rows of an export. Over the root rows of all submissions and everything below them, a
table and a number make out one row, and the parent link of a row leads to the one row that has
it among its children. -/
namespace SurveyTables

namespace Row

theorem withDescendants_sublist {row other : Row} (member : other ∈ row.withDescendants) :
    other.withDescendants.Sublist row.withDescendants := by
  induction row using induction with
  | step row ih =>
    rcases mem_withDescendants.1 member with rfl | ⟨child, isChild, below⟩
    · exact List.Sublist.refl _
    · have lower := ih child (mem_childRows.1 isChild).1 below
      have inList : child.withDescendants.Sublist (row.childRows.flatMap withDescendants) :=
        List.sublist_flatten_of_mem (List.mem_map_of_mem isChild)
      rw [withDescendants_eq row]
      exact (lower.trans inList).cons row

theorem sublist_flatMap_withDescendants (rows : List Row) :
    rows.Sublist (rows.flatMap withDescendants) := by
  have each : (rows.flatMap fun row => [row]).Sublist (rows.flatMap withDescendants) := by
    refine List.Sublist.flatMap_right _ fun row _ => ?_
    rw [List.singleton_sublist]
    exact mem_withDescendants_self row
  rwa [List.flatMap_singleton'] at each

theorem childRows_sublist (row : Row) : row.childRows.Sublist row.withDescendants := by
  rw [withDescendants_eq]
  exact (sublist_flatMap_withDescendants row.childRows).cons row

end Row

namespace Exporter

/-- The root rows of an export. -/
structure Roots (exporter : Exporter) (roots : List Row) : Prop where
  made : ∀ root ∈ roots, RowOf exporter exporter.layout.root root
  orphan : ∀ root ∈ roots, root.parent = none
  distinct : (roots.map Row.id).Nodup

def rowsOf (roots : List Row) : List Row := roots.flatMap Row.withDescendants

theorem exists_root_of_flatten {exporter : Exporter} {submission : Submission} {root : Row}
    (ok : exporter.flatten submission = .ok root) :
    RowOf exporter exporter.layout.root root ∧ root.parent = none ∧
      submission.instanceId? = some (root.id : Int) := by
  obtain ⟨id, numbered, call⟩ := flatten_ok_iff.1 ok
  obtain ⟨-, rfl, orphan, -⟩ := Flatten.fields_of_row call
  exact ⟨⟨submission, _, .root numbered call⟩, orphan, numbered⟩

theorem roots_of_mapM {exporter : Exporter} {submissions : List Submission} {roots : List Row}
    (ids : (submissions.map Submission.instanceId?).Nodup)
    (ok : submissions.mapM exporter.flatten = .ok roots) : Roots exporter roots := by
  have each := Except.forall₂_of_mapM_eq_ok ok
  constructor
  · intro root member
    obtain ⟨submission, -, ok⟩ := Sequence.exists_of_mem_right each member
    exact (exists_root_of_flatten ok).1
  · intro root member
    obtain ⟨submission, -, ok⟩ := Sequence.exists_of_mem_right each member
    exact (exists_root_of_flatten ok).2.1
  · have numbers : submissions.map Submission.instanceId? =
        (roots.map Row.id).map fun id : Nat => some (id : Int) := by
      rw [List.map_map]
      exact Sequence.map_eq_of_forall₂ each fun _ _ ok => (exists_root_of_flatten ok).2.2
    rw [numbers] at ids
    exact ids.of_map _

namespace Roots

variable {form : Form} {baseUrl : String} {roots : List Row} {row other : Row}

theorem exists_rowOf (valid : Roots (ofForm form baseUrl) roots) (member : row ∈ rowsOf roots) :
    ∃ table, RowOf (ofForm form baseUrl) table row := by
  obtain ⟨root, isRoot, below⟩ := List.mem_flatMap.1 member
  obtain ⟨submission, answers, built⟩ := valid.made root isRoot
  obtain ⟨table, answers, built⟩ := built.exists_of_mem_withDescendants below
  exact ⟨table, submission, answers, built⟩

theorem mem_rowsOf_of_childRows (member : row ∈ rowsOf roots) (isChild : other ∈ row.childRows) :
    other ∈ rowsOf roots := by
  obtain ⟨root, isRoot, below⟩ := List.mem_flatMap.1 member
  have lower := Row.mem_withDescendants_of_childRows isChild
  exact List.mem_flatMap.2 ⟨root, isRoot, Row.mem_withDescendants_trans below lower⟩

theorem nodup_keys (valid : Roots (ofForm form baseUrl) roots) (distinct : form.repeatPaths.Nodup) :
    ((rowsOf roots).map Row.key).Nodup := by
  obtain ⟨level, levels⟩ := form.exists_levels distinct
  have paths := distinct.sublist form.paths_sublist
  have made : ∀ root ∈ roots, ∃ table, RowOf (ofForm form baseUrl) table root ∧
      level table.repeatPath = level (Layout.infer form).root.repeatPath :=
    fun root member => ⟨_, valid.made root member, rfl⟩
  refine RowOf.nodup_keys_flatMap levels made valid.distinct ?_
  exact fun root member => (valid.made root member).nodup_keys levels paths

/-- The rows directly below a row are those that name it as their parent. -/
theorem mem_childRows_iff (valid : Roots (ofForm form baseUrl) roots)
    (distinct : form.repeatPaths.Nodup) (member : row ∈ rowsOf roots)
    (member' : other ∈ rowsOf roots) :
    other ∈ row.childRows ↔ other.parent = some row.link := by
  constructor
  · intro isChild
    obtain ⟨table, made⟩ := valid.exists_rowOf member
    obtain ⟨_, _, _, -, -, -, linked, -⟩ := made.exists_of_mem_childRows isChild
    exact linked
  · intro linked
    obtain ⟨root, isRoot, below⟩ := List.mem_flatMap.1 member'
    -- A root names no parent; any other row names one, and the key tells which row it is.
    rcases Row.eq_or_mem_childRows below with rfl | ⟨parent, above, isChild⟩
    · rw [valid.orphan other isRoot] at linked
      contradiction
    · have inExport : parent ∈ rowsOf roots := List.mem_flatMap.2 ⟨root, isRoot, above⟩
      obtain ⟨table, made⟩ := valid.exists_rowOf inExport
      obtain ⟨_, _, _, -, -, -, linked', -⟩ := made.exists_of_mem_childRows isChild
      have keys := Row.key_eq_of_link_eq (Option.some.inj (linked'.symm.trans linked))
      obtain rfl := List.inj_on_of_nodup_map (valid.nodup_keys distinct) inExport member keys
      exact isChild

theorem nodup_rowsOf (valid : Roots (ofForm form baseUrl) roots)
    (distinct : form.repeatPaths.Nodup) : (rowsOf roots).Nodup :=
  (valid.nodup_keys distinct).of_map _

theorem filter_parent_eq_childRows (valid : Roots (ofForm form baseUrl) roots)
    (distinct : form.repeatPaths.Nodup) (member : row ∈ rowsOf roots) :
    (rowsOf roots).filter (·.parent = some row.link) = row.childRows := by
  obtain ⟨root, isRoot, below⟩ := List.mem_flatMap.1 member
  have tree : root.withDescendants.Sublist (rowsOf roots) :=
    List.sublist_flatten_of_mem (List.mem_map_of_mem isRoot)
  have part := (row.childRows_sublist.trans (Row.withDescendants_sublist below)).trans tree
  refine Sequence.filter_eq_of_sublist part (valid.nodup_rowsOf distinct) fun other member' => ?_
  rw [decide_eq_true_eq]
  exact (valid.mem_childRows_iff distinct member member').symm

theorem filter_parent_eq_roots (valid : Roots (ofForm form baseUrl) roots)
    (distinct : form.repeatPaths.Nodup) :
    (rowsOf roots).filter (·.parent = none) = roots := by
  have part : roots.Sublist (rowsOf roots) := Row.sublist_flatMap_withDescendants roots
  refine Sequence.filter_eq_of_sublist part (valid.nodup_rowsOf distinct) fun row member => ?_
  rw [decide_eq_true_eq]
  constructor
  · intro orphan
    obtain ⟨root, isRoot, below⟩ := List.mem_flatMap.1 member
    rcases Row.eq_or_mem_childRows below with rfl | ⟨parent, above, isChild⟩
    · exact isRoot
    · have inExport : parent ∈ rowsOf roots := List.mem_flatMap.2 ⟨root, isRoot, above⟩
      rw [valid.mem_childRows_iff distinct inExport member, orphan] at isChild
      contradiction
  · exact valid.orphan row

end Roots

end Exporter

end SurveyTables
