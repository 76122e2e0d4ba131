import SurveyTables.Proofs.Flatten.Provenance
import SurveyTables.Proofs.RowId

/-! Numbers within one tree of rows. Whatever the form declares, shared and self-nested repeat
groups included, a row is reached from each row above it by a descent of positive ordinals, so
numbers grow along the descent and no two rows of the tree have the same one. -/
namespace SurveyTables.Exporter

namespace BuiltFrom

variable {form : Form} {baseUrl : String} {submission : Submission} {row other : Row}
  {table : Table} {answers : Keyed Json}

/-- A row below a row is numbered with a positive ordinal, and was itself made from something. -/
theorem exists_ordinal (built : BuiltFrom (ofForm form baseUrl) submission row table answers)
    (member : other ∈ row.childRows) :
    ∃ ordinal child below, 1 ≤ ordinal ∧ other.id = RowId.pair row.id ordinal ∧
      BuiltFrom (ofForm form baseUrl) submission other child below := by
  rw [built.mem_childRows_iff] at member
  obtain ⟨listed, inElements, made⟩ :=
    Sequence.exists_of_mem_right built.forall₂_children member
  cases made with
  | mk bound found linked numbered below =>
    exact ⟨_, _, _, List.le_snd_of_mem_zipIdx inElements, numbered, below⟩

theorem exists_descent (built : BuiltFrom (ofForm form baseUrl) submission row table answers)
    (member : other ∈ row.withDescendants) :
    ∃ ordinals, (∀ k ∈ ordinals, 1 ≤ k) ∧ other.id = RowId.reach row.id ordinals := by
  induction row using Row.induction generalizing table answers with
  | step row ih =>
    rcases Row.mem_withDescendants.1 member with rfl | ⟨child, isChild, below⟩
    · exact ⟨[], by simp, rfl⟩
    · obtain ⟨ordinal, _, _, positive, numbered, made⟩ := built.exists_ordinal isChild
      obtain ⟨ordinals, later, reached⟩ := ih child (Row.mem_childRows.1 isChild).1 made below
      refine ⟨ordinal :: ordinals, ?_, ?_⟩
      · simpa using ⟨positive, later⟩
      · rw [reached, numbered, RowId.reach_cons]

/-- A row below a child has a descent that begins with the child's ordinal. -/
theorem exists_descent_of_childRows
    (built : BuiltFrom (ofForm form baseUrl) submission row table answers) {child : Row}
    (isChild : child ∈ row.childRows) (member : other ∈ child.withDescendants) :
    ∃ ordinal ordinals, (∀ k ∈ ordinal :: ordinals, 1 ≤ k) ∧
      child.id = RowId.pair row.id ordinal ∧
      other.id = RowId.reach row.id (ordinal :: ordinals) := by
  obtain ⟨ordinal, _, _, positive, numbered, made⟩ := built.exists_ordinal isChild
  obtain ⟨ordinals, later, reached⟩ := made.exists_descent member
  refine ⟨ordinal, ordinals, by simpa using ⟨positive, later⟩, numbered, ?_⟩
  rw [reached, numbered, RowId.reach_cons]

theorem id_lt_of_mem (built : BuiltFrom (ofForm form baseUrl) submission row table answers)
    {child : Row} (isChild : child ∈ row.childRows) (member : other ∈ child.withDescendants) :
    row.id < other.id := by
  obtain ⟨ordinal, ordinals, positive, -, reached⟩ :=
    built.exists_descent_of_childRows isChild member
  rw [reached]
  exact RowId.lt_reach positive

theorem childRows_perm (built : BuiltFrom (ofForm form baseUrl) submission row table answers) :
    row.childRows.Perm row.children := by
  refine Sequence.flatMap_filter_perm ?_ fun child member => ?_
  · rw [built.childTables_eq]
    exact Sequence.nodup_eraseDups _
  · exact (Row.mem_childRows.1 (built.mem_childRows_iff.2 member)).2

/-- The children of a row are numbered from one, through all its tables. -/
theorem ids_children (built : BuiltFrom (ofForm form baseUrl) submission row table answers) :
    row.children.map Row.id = (List.range' 1 row.children.length).map (RowId.pair row.id) := by
  have made := built.forall₂_children
  have ordinals : ((table.elements answers).zipIdx 1).map Prod.snd =
      List.range' 1 row.children.length := by
    rw [List.zipIdx_map_snd, ← made.length_eq, List.length_zipIdx]
  rw [← ordinals, List.map_map]
  refine (Sequence.map_eq_of_forall₂ made ?_).symm
  rintro _ child ⟨-, -, -, numbered, -⟩
  exact numbered.symm

theorem ids_childRows_perm
    (built : BuiltFrom (ofForm form baseUrl) submission row table answers) :
    (row.childRows.map Row.id).Perm
      ((List.range' 1 row.childRows.length).map (RowId.pair row.id)) := by
  have same := built.childRows_perm
  rw [same.length_eq, ← built.ids_children]
  exact same.map Row.id

theorem nodup_ids_children
    (built : BuiltFrom (ofForm form baseUrl) submission row table answers) :
    (row.children.map Row.id).Nodup := by
  rw [built.ids_children]
  exact List.Nodup.map (fun _ _ same => (RowId.pair_injective same).2) List.nodup_range'

theorem nodup_ids (built : BuiltFrom (ofForm form baseUrl) submission row table answers) :
    (row.withDescendants.map Row.id).Nodup := by
  induction row using Row.induction generalizing table answers with
  | step row ih =>
    rw [Row.withDescendants_eq, List.map_cons, List.nodup_cons]
    constructor
    · intro shared
      obtain ⟨low, member, same⟩ := List.mem_map.1 shared
      obtain ⟨child, isChild, below⟩ := List.mem_flatMap.1 member
      exact absurd same (Nat.ne_of_gt (built.id_lt_of_mem isChild below))
    · have apart : row.childRows.Pairwise fun child child' => child.id ≠ child'.id :=
        List.pairwise_map.1 ((built.childRows_perm.map Row.id).nodup_iff.2 built.nodup_ids_children)
      rw [List.map_flatMap, List.nodup_flatMap]
      constructor
      · intro child isChild
        obtain ⟨_, _, _, -, -, made⟩ := built.exists_ordinal isChild
        exact ih child (Row.mem_childRows.1 isChild).1 made
      -- Descents through two children differ in their first ordinal.
      · refine apart.imp_of_mem ?_
        intro child child' isChild isChild' different id inside inside'
        obtain ⟨low, below, rfl⟩ := List.mem_map.1 inside
        obtain ⟨low', below', same⟩ := List.mem_map.1 inside'
        obtain ⟨k, ks, positive, numbered, reached⟩ :=
          built.exists_descent_of_childRows isChild below
        obtain ⟨k', ks', positive', numbered', reached'⟩ :=
          built.exists_descent_of_childRows isChild' below'
        rw [reached, reached'] at same
        have descents := RowId.reach_injective_of_positive positive' positive same
        rw [numbered, numbered', (List.cons.inj descents).1] at different
        exact different rfl

end BuiltFrom

/-- The numbers of the rows of one submission, whatever its form declares: the root has the
submission's own, the children of a row the pairs of the row's number with one to their number,
and every row a greater number than the rows above it and a number of its own. -/
theorem numbering_of_flatten (form : Form) (baseUrl : String) (submission : Submission)
    (root : Row) (ok : (ofForm form baseUrl).flatten submission = .ok root) :
    submission.instanceId? = some (root.id : Int) ∧
      (∀ row ∈ root.withDescendants,
        (row.childRows.map Row.id).Perm
            ((List.range' 1 row.childRows.length).map (RowId.pair row.id)) ∧
          ∀ child ∈ row.childRows, ∀ other ∈ child.withDescendants, row.id < other.id) ∧
      (root.withDescendants.map Row.id).Nodup := by
  have built := BuiltFrom.of_flatten ok
  refine ⟨?_, ?_, built.nodup_ids⟩
  · obtain ⟨id, numbered, call⟩ := flatten_ok_iff.1 ok
    rw [numbered, (Flatten.fields_of_row call).2.1]
  · intro row member
    obtain ⟨table, answers, below⟩ := built.exists_of_mem_withDescendants member
    exact ⟨below.ids_childRows_perm, fun child isChild other => below.id_lt_of_mem isChild⟩

/-- A repeat group that is declared twice and also inside itself. -/
def lineage : Form where
  idString := "lineage"
  projectId := 1
  title := "Lineage"
  fields := [⟨"person", .repeatGroup, [], [⟨"person", .repeatGroup, [], []⟩]⟩,
    ⟨"person", .repeatGroup, [], []⟩]

def lineageAnswers : Submission :=
  ⟨[("_id", .ofNat 0), ("person", .array [.object [("person", .array [.object []])]])]⟩

def lineageRow : Row :=
  ⟨"data", 0, none, [], ["person"],
    [⟨"person", 2, some ⟨0, "data"⟩, [], ["person"],
        [⟨"person", 7, some ⟨2, "person"⟩, [], ["person"], []⟩]⟩,
      ⟨"person", 5, some ⟨0, "data"⟩, [], ["person"],
        [⟨"person", 22, some ⟨5, "person"⟩, [], ["person"], []⟩]⟩]⟩

theorem numbering_lineage :
    (ofForm lineage "").flatten lineageAnswers = .ok lineageRow ∧
      lineageAnswers.instanceId? = some (lineageRow.id : Int) ∧
      (∀ row ∈ lineageRow.withDescendants,
        (row.childRows.map Row.id).Perm
            ((List.range' 1 row.childRows.length).map (RowId.pair row.id)) ∧
          ∀ child ∈ row.childRows, ∀ other ∈ child.withDescendants, row.id < other.id) ∧
      (lineageRow.withDescendants.map Row.id).Nodup := by
  have ok : (ofForm lineage "").flatten lineageAnswers = .ok lineageRow := by
    rw [← flattenTo_eq_flatten 3]
    decide +kernel
  exact ⟨ok, numbering_of_flatten lineage "" lineageAnswers lineageRow ok⟩

end SurveyTables.Exporter
