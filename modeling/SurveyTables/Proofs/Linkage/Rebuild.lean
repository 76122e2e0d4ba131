import SurveyTables.Proofs.Linkage.Roots

/-! Nesting from flat tables. The rows of an export can be scattered over tables in which nothing
is nested; what joins each record to the one that its parent link names puts the rows together
again as they were, in the same order. -/
namespace SurveyTables

/-- A row as a flat table holds it. -/
structure Record where
  id : Nat
  parent : Option ParentLink
  columns : Keyed Cell
deriving DecidableEq, Repr

/-- Tables by name. -/
abbrev FlatTables := List (String × List Record)

def Row.record (row : Row) : Record := ⟨row.id, row.parent, row.columns⟩

/-- A row's record with the name of its table. -/
def Row.entry (row : Row) : String × Record := (row.table, row.record)

namespace Layout

/-- The rows of an export, table by table and depth first in each. -/
def scatter (layout : Layout) (roots : List Row) : FlatTables :=
  layout.names.map fun name => (name, (roots.flatMap (·.rowsInTable name)).map Row.record)

def childNamesOf (layout : Layout) (name : String) : List String :=
  (layout.tables.find? (·.name = name)).elim [] layout.childNames

end Layout

namespace FlatTables

def entries (tables : FlatTables) : List (String × Record) :=
  tables.flatMap fun table => table.2.map (table.1, ·)

def withParent (tables : FlatTables) (parent : Option ParentLink) : List (String × Record) :=
  tables.entries.filter (·.2.parent = parent)

/-- The row of a record, with the rows that as many joins as `joins` find below it. -/
def row (layout : Layout) (tables : FlatTables) : Nat → String × Record → Row
  | 0, (name, record) =>
    ⟨name, record.id, record.parent, record.columns, layout.childNamesOf name, []⟩
  | joins + 1, (name, record) =>
    ⟨name, record.id, record.parent, record.columns, layout.childNamesOf name,
      (tables.withParent (some ⟨record.id, name⟩)).map (row layout tables joins)⟩

/-- The rows without a parent, each with all rows below it. A row lies below another through as
many joins as there are tables, at most. -/
def nest (layout : Layout) (tables : FlatTables) : List Row :=
  (tables.withParent none).map (row layout tables tables.length)

end FlatTables

namespace Layout

theorem childNamesOf_eq (form : Form) {table : Table} (member : table ∈ (infer form).tables) :
    (infer form).childNamesOf table.name = (infer form).childNames table := by
  have found : ((infer form).tables.find? (·.name = table.name)).isSome := by
    rw [List.find?_isSome]
    exact ⟨table, member, by simp⟩
  obtain ⟨other, found⟩ := Option.isSome_iff_exists.1 found
  have same := List.find?_some found
  rw [decide_eq_true_eq] at same
  obtain rfl := (namesApart_infer form).eq_of_name (List.mem_of_find?_eq_some found) member same
  rw [childNamesOf, found]
  rfl

theorem entries_scatter (layout : Layout) (roots : List Row) :
    (layout.scatter roots).entries =
      (layout.names.flatMap fun name =>
        (Exporter.rowsOf roots).filter (·.table = name)).map Row.entry := by
  rw [FlatTables.entries, scatter, List.flatMap_map, List.map_flatMap]
  refine List.flatMap_congr fun name _ => ?_
  rw [Exporter.rowsOf, List.filter_flatMap, List.map_map]
  refine List.map_congr_left fun row member => ?_
  obtain ⟨root, -, member⟩ := List.mem_flatMap.1 member
  have inTable : row.table = name := by simpa using (List.mem_filter.1 member).2
  rw [Row.entry, inTable]
  rfl

/-- The records below one parent are those of its rows, table by table. -/
theorem withParent_scatter (layout : Layout) (roots : List Row) (parent : Option ParentLink) :
    (layout.scatter roots).withParent parent =
      (layout.names.flatMap fun name =>
        ((Exporter.rowsOf roots).filter (·.parent = parent)).filter (·.table = name)).map
          Row.entry := by
  rw [FlatTables.withParent, entries_scatter, List.filter_map, List.filter_flatMap]
  congr 1
  refine List.flatMap_congr fun name _ => ?_
  rw [List.filter_comm]
  rfl

theorem length_tables_infer (form : Form) (distinct : (Entry.paths form.entries).Nodup) :
    (infer form).tables.length = (Entry.paths form.entries).length + 1 := by
  have length := congrArg List.length (laid_infer form)
  rw [Sequence.eraseDups_of_nodup distinct] at length
  simpa [repeatPaths] using length

end Layout

namespace Exporter.Roots

variable {form : Form} {baseUrl : String} {roots : List Row}

theorem withParent_some (valid : Roots (ofForm form baseUrl) roots)
    (distinct : form.repeatPaths.Nodup) {row : Row} (member : row ∈ rowsOf roots) :
    ((Layout.infer form).scatter roots).withParent (some row.link) =
      row.children.map Row.entry := by
  obtain ⟨table, made⟩ := valid.exists_rowOf member
  have paths := distinct.sublist form.paths_sublist
  obtain ⟨submission, answers, built⟩ := made
  rw [Layout.withParent_scatter, valid.filter_parent_eq_childRows distinct member,
    built.childRows_eq paths]
  congr 1
  exact built.flatMap_names_childrenIn paths

theorem withParent_none (valid : Roots (ofForm form baseUrl) roots)
    (distinct : form.repeatPaths.Nodup) :
    ((Layout.infer form).scatter roots).withParent none = roots.map Row.entry := by
  have named : ∀ root ∈ roots, root.table = (Layout.infer form).root.name := by
    intro root member
    obtain ⟨_, _, built⟩ := valid.made root member
    exact built.table_eq
  have first : [(Layout.infer form).root.name].Sublist (Layout.infer form).names :=
    List.singleton_sublist.2 (List.mem_map_of_mem (Layout.root_mem_tables _))
  rw [Layout.withParent_scatter, valid.filter_parent_eq_roots distinct,
    Sequence.flatMap_eq_of_sublist first (Layout.namesApart_infer form).distinct]
  · rw [List.flatMap_singleton, List.filter_eq_self.2 (by simpa using named)]
  · intro name _ other
    rw [List.filter_eq_nil_iff]
    intro root member same
    rw [decide_eq_true_eq, named root member] at same
    exact other (same ▸ List.mem_singleton_self _)

/-- Enough joins rebuild a row with all that is below it. -/
theorem row_entry (valid : Roots (ofForm form baseUrl) roots) (distinct : form.repeatPaths.Nodup)
    {level : Option String → Nat} (levels : Entry.Levels form.entries level) {row : Row}
    {table : Table} (member : row ∈ rowsOf roots) (made : RowOf (ofForm form baseUrl) table row)
    {joins : Nat} (enough : (Layout.infer form).tables.length ≤ level table.repeatPath + joins) :
    FlatTables.row (Layout.infer form) ((Layout.infer form).scatter roots) joins row.entry =
      row := by
  have paths := distinct.sublist form.paths_sublist
  induction row using Row.induction generalizing table joins with
  | step row ih =>
    obtain ⟨_, _, built⟩ := made
    have childTables : (Layout.infer form).childNamesOf row.table = row.childTables := by
      rw [built.table_eq, Layout.childNamesOf_eq form built.mem_tables]
      exact built.childTables_eq.symm
    -- Each join leads one level down, and no table lies as deep as there are tables.
    cases joins with
    | zero =>
      have depth := levels.bounded table.repeatPath
      rw [Layout.length_tables_infer form paths] at enough
      omega
    | succ joins =>
      have below : ∀ child ∈ row.children, FlatTables.row (Layout.infer form)
          ((Layout.infer form).scatter roots) joins child.entry = child := by
        intro child isChild
        have isChild' := built.mem_childRows_iff.2 isChild
        obtain ⟨childTable, path, -, made', own, declared, -⟩ :=
          RowOf.exists_of_mem_childRows ⟨_, _, built⟩ isChild'
        refine ih child isChild (mem_rowsOf_of_childRows member isChild') made' ?_
        rw [own, levels.below _ _ declared]
        omega
      have children : (((Layout.infer form).scatter roots).withParent (some row.link)).map
          (FlatTables.row (Layout.infer form) ((Layout.infer form).scatter roots) joins) =
          row.children := by
        rw [valid.withParent_some distinct member, List.map_map]
        exact (List.map_congr_left below).trans (List.map_id _)
      rw [Row.entry, FlatTables.row, childTables]
      have rebuilt :=
        congrArg (Row.mk row.table row.id row.parent row.columns row.childTables) children
      exact rebuilt.trans (by cases row; rfl)

end Exporter.Roots

namespace Exporter

/-- The linkage of an export. Where no two repeat fields have one path and no two submissions one
number, a row is known by its table and its number, its children are the rows that name it as
their parent, and joining flat tables by parents restores every nested row. -/
theorem linkage_of_mapM (form : Form) (baseUrl : String) (submissions : List Submission)
    (roots : List Row) (distinct : form.repeatPaths.Nodup)
    (ids : (submissions.map Submission.instanceId?).Nodup)
    (ok : submissions.mapM (ofForm form baseUrl).flatten = .ok roots) :
    ((rowsOf roots).map fun row => (row.table, row.id)).Nodup ∧
      (∀ parent ∈ rowsOf roots, ∀ child ∈ rowsOf roots,
        child ∈ parent.childRows ↔ child.parent = some ⟨parent.id, parent.table⟩) ∧
      ((Layout.infer form).scatter roots).nest (Layout.infer form) = roots := by
  have valid := roots_of_mapM ids ok
  refine ⟨valid.nodup_keys distinct, ?_, ?_⟩
  · exact fun parent member child member' => valid.mem_childRows_iff distinct member member'
  · obtain ⟨level, levels⟩ := form.exists_levels distinct
    rw [FlatTables.nest, valid.withParent_none distinct, List.map_map]
    refine (List.map_congr_left fun root member => ?_).trans (List.map_id _)
    have inExport := (Row.sublist_flatMap_withDescendants roots).subset member
    refine valid.row_entry distinct levels inExport (valid.made root member) ?_
    simp [Layout.scatter, Layout.names]

def household : Form where
  idString := "household"
  projectId := 1
  title := "Household"
  fields := [⟨"person", .repeatGroup, [],
    [⟨"person/age", .integer, [], []⟩,
      ⟨"person/visit", .repeatGroup, [], [⟨"person/visit/day", .text, [], []⟩]⟩]⟩]

/-- The visit of the first submission and the person of the second one both have number 16. -/
def households : List Submission :=
  [⟨[("_id", .ofNat 1), ("person", .array [.object [("person/age", .string "41"),
      ("person/visit", .array [.object [("person/visit/day", .string "Mon")]])]])]⟩,
    ⟨[("_id", .ofNat 4), ("person", .array [.object []])]⟩]

def householdRows : List Row :=
  [⟨"data", 1, none, [], ["person"],
      [⟨"person", 4, some ⟨1, "data"⟩, [("age", .int 41)], ["visit"],
        [⟨"visit", 16, some ⟨4, "person"⟩, [("day", .text "Mon")], [], []⟩]⟩]⟩,
    ⟨"data", 4, none, [], ["person"],
      [⟨"person", 16, some ⟨4, "data"⟩, [("age", .null)], ["visit"], []⟩]⟩]

theorem linkage_households :
    (households.mapM (ofForm household "").flatten) = .ok householdRows ∧
      ((rowsOf householdRows).map fun row => (row.table, row.id)).Nodup ∧
      (∀ parent ∈ rowsOf householdRows, ∀ child ∈ rowsOf householdRows,
        child ∈ parent.childRows ↔ child.parent = some ⟨parent.id, parent.table⟩) ∧
      ((Layout.infer household).scatter householdRows).nest (Layout.infer household) =
        householdRows := by
  have ok : households.mapM (ofForm household "").flatten = .ok householdRows := by
    rw [← flattenTo_eq_flatten 3]
    decide +kernel
  exact ⟨ok, linkage_of_mapM household "" households householdRows (by decide) (by decide) ok⟩

end Exporter

end SurveyTables
