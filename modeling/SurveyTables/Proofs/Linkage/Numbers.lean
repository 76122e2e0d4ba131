import SurveyTables.Proofs.Form.Depth
import SurveyTables.Proofs.Linkage.Descent
import SurveyTables.Proofs.Linkage.Order

/-! Which rows have which numbers. The rows of one table lie equally deep, so their numbers are
reached by descents of one length and tell the rows apart. Rows of different tables may share a
number. -/
namespace SurveyTables

namespace Row

def key (row : Row) : String × Nat := (row.table, row.id)

/-- What a row below another one says of it. -/
def link (row : Row) : ParentLink := ⟨row.id, row.table⟩

theorem key_eq_of_link_eq {row other : Row} (same : row.link = other.link) :
    row.key = other.key := by
  obtain ⟨id, table⟩ := ParentLink.mk.inj same
  exact Prod.ext table id

end Row

namespace Exporter

/-- The row was made for the table, out of some submission. -/
def RowOf (exporter : Exporter) (table : Table) (row : Row) : Prop :=
  ∃ submission answers, BuiltFrom exporter submission row table answers

namespace RowOf

variable {form : Form} {baseUrl : String} {row other : Row} {table other' : Table}

theorem table_unique (left : RowOf (ofForm form baseUrl) table row)
    (right : RowOf (ofForm form baseUrl) other' other) (same : row.table = other.table) :
    table = other' := by
  obtain ⟨_, _, built⟩ := left
  obtain ⟨_, _, built'⟩ := right
  refine (Layout.namesApart_infer form).eq_of_name built.mem_tables built'.mem_tables ?_
  rw [← built.table_eq, same, built'.table_eq]

/-- What joins a row to a row directly below it. -/
theorem exists_of_mem_childRows (made : RowOf (ofForm form baseUrl) table row)
    (member : other ∈ row.childRows) :
    ∃ child path ordinal, RowOf (ofForm form baseUrl) child other ∧
      child.repeatPath = some path ∧ (table.repeatPath, path) ∈ form.repeats ∧
      other.parent = some row.link ∧ other.id = RowId.pair row.id ordinal := by
  obtain ⟨submission, answers, built⟩ := made
  have tables := built.mem_tables
  rw [built.mem_childRows_iff] at member
  obtain ⟨listed, below⟩ := built.exists_builtBelow member
  cases below with
  | @mk path place ordinal answers' child _ bound found linked numbered below =>
    obtain ⟨child', found', own⟩ := Layout.exists_table_of_mem_repeats form tables bound
    obtain rfl := Option.some.inj (found.symm.trans found')
    have declared := (Layout.exists_mem_repeats_iff form tables).1 ⟨place, bound⟩
    exact ⟨child, path, ordinal, ⟨submission, answers', below⟩, own, declared, linked, numbered⟩

theorem nodup_ids (made : RowOf (ofForm form baseUrl) table row) :
    (row.children.map Row.id).Nodup := by
  obtain ⟨_, _, built⟩ := made
  exact built.nodup_ids_children

theorem childRows_eq (distinct : (Entry.paths form.entries).Nodup)
    (made : RowOf (ofForm form baseUrl) table row) : row.childRows = row.children := by
  obtain ⟨_, _, built⟩ := made
  exact built.childRows_eq distinct

variable {level : Option String → Nat} (levels : Entry.Levels form.entries level)

include levels

/-- The descent to a row below another one has as many steps as their tables' depths differ. -/
theorem exists_reach (made : RowOf (ofForm form baseUrl) table row)
    (member : other ∈ row.withDescendants) :
    ∃ table' ordinals, RowOf (ofForm form baseUrl) table' other ∧
      other.id = RowId.reach row.id ordinals ∧
      level table'.repeatPath = level table.repeatPath + ordinals.length := by
  induction row using Row.induction generalizing table with
  | step row ih =>
    rcases Row.mem_withDescendants.1 member with rfl | ⟨child, isChild, below⟩
    · exact ⟨table, [], made, rfl, rfl⟩
    · obtain ⟨childTable, path, ordinal, made', own, declared, -, numbered⟩ :=
        made.exists_of_mem_childRows isChild
      obtain ⟨table', ordinals, last, reached, depth⟩ :=
        ih child (Row.mem_childRows.1 isChild).1 made' below
      refine ⟨table', ordinal :: ordinals, last, ?_, ?_⟩
      · rw [reached, numbered, RowId.reach_cons]
      · rw [depth, own, levels.below _ _ declared, List.length_cons]
        omega

/-- Rows at one depth differ by number if rows below them share a key. -/
theorem id_eq_of_key_eq {row' low low' : Row} (made : RowOf (ofForm form baseUrl) table row)
    (made' : RowOf (ofForm form baseUrl) other' row')
    (depth : level table.repeatPath = level other'.repeatPath)
    (member : low ∈ row.withDescendants) (member' : low' ∈ row'.withDescendants)
    (same : low.key = low'.key) : row.id = row'.id := by
  obtain ⟨bottom, ordinals, last, reached, steps⟩ := made.exists_reach levels member
  obtain ⟨bottom', ordinals', last', reached', steps'⟩ := made'.exists_reach levels member'
  obtain ⟨tables, ids⟩ := Prod.mk.inj same
  obtain rfl := last.table_unique last' tables
  have length : ordinals.length = ordinals'.length := by omega
  rw [reached, reached'] at ids
  exact (RowId.reach_injective length ids).1

/-- Trees of rows at one depth keep apart if their own rows do. -/
theorem nodup_keys_flatMap {rows : List Row} {depth : Nat}
    (made : ∀ row ∈ rows, ∃ table, RowOf (ofForm form baseUrl) table row ∧
      level table.repeatPath = depth)
    (distinct : (rows.map Row.id).Nodup)
    (trees : ∀ row ∈ rows, (row.withDescendants.map Row.key).Nodup) :
    ((rows.flatMap Row.withDescendants).map Row.key).Nodup := by
  have apart : rows.Pairwise fun row row' => row.id ≠ row'.id := List.pairwise_map.1 distinct
  rw [List.map_flatMap, List.nodup_flatMap]
  refine ⟨trees, apart.imp_of_mem ?_⟩
  intro row row' member member' different key inside inside'
  obtain ⟨low, below, rfl⟩ := List.mem_map.1 inside
  obtain ⟨low', below', same⟩ := List.mem_map.1 inside'
  obtain ⟨table, made₁, depth₁⟩ := made row member
  obtain ⟨table', made₂, depth₂⟩ := made row' member'
  have depths := depth₁.trans depth₂.symm
  exact different (id_eq_of_key_eq levels made₁ made₂ depths below below' same.symm)

theorem nodup_keys (distinct : (Entry.paths form.entries).Nodup)
    (made : RowOf (ofForm form baseUrl) table row) :
    (row.withDescendants.map Row.key).Nodup := by
  induction row using Row.induction generalizing table with
  | step row ih =>
    have deeper : ∀ child ∈ row.childRows, ∃ table', RowOf (ofForm form baseUrl) table' child ∧
        level table'.repeatPath = level table.repeatPath + 1 := by
      intro child member
      obtain ⟨table', path, -, made', own, declared, -⟩ := made.exists_of_mem_childRows member
      exact ⟨table', made', by rw [own, levels.below _ _ declared]⟩
    rw [Row.withDescendants_eq, List.map_cons, List.nodup_cons]
    constructor
    -- A row below lies deeper, so it is in another table.
    · intro shared
      obtain ⟨low, member, same⟩ := List.mem_map.1 shared
      obtain ⟨child, isChild, below⟩ := List.mem_flatMap.1 member
      obtain ⟨table', made', depth⟩ := deeper child isChild
      obtain ⟨bottom, ordinals, last, -, steps⟩ := made'.exists_reach levels below
      obtain rfl := last.table_unique made (Prod.mk.inj same).1
      omega
    · refine nodup_keys_flatMap levels deeper ?_ ?_
      · rw [made.childRows_eq distinct]
        exact made.nodup_ids
      · intro child member
        obtain ⟨table', made', -⟩ := deeper child member
        exact ih child (Row.mem_childRows.1 member).1 made'

end RowOf

end Exporter

end SurveyTables
