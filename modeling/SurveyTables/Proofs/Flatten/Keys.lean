import SurveyTables.Proofs.Flatten.Agreement
import SurveyTables.Proofs.Form.Depth
import SurveyTables.Proofs.Layout.Reserves

/-! The keys under which a row is written: link columns, columns, and the names of child tables.
They are distinct, but for a child table that the row's table shares and did not open: nothing
keeps a column from having the name of such a table. -/
namespace SurveyTables

theorem Row.linkMembers_sublist (id : Nat) (parent : Option ParentLink) :
    ((linkMembers id parent).map Prod.fst).Sublist linkColumns := by
  cases parent with
  | none => exact .cons_cons _ (List.nil_sublist _)
  | some parent => exact List.Sublist.refl _

namespace Exporter

variable {form : Form} {baseUrl : String} {submission : Submission} {row : Row} {table : Table}
  {answers : Keyed Json}

theorem BuiltFrom.mem_childTables
    (built : BuiltFrom (ofForm form baseUrl) submission row table answers) {name : String} :
    name ∈ row.childTables ↔ ∃ child ∈ (Layout.infer form).tables, ∃ path,
      child.repeatPath = some path ∧ (table.repeatPath, path) ∈ form.repeats ∧
        child.name = name := by
  have member := built.mem_tables
  rw [built.childTables_eq, Layout.mem_childNames]
  constructor
  · rintro ⟨path, place, child, bound, found, named⟩
    obtain ⟨child', found', own⟩ := Layout.exists_table_of_mem_repeats form member bound
    obtain rfl := Option.some.inj (found.symm.trans found')
    have declared := (Layout.exists_mem_repeats_iff form member).1 ⟨place, bound⟩
    exact ⟨child, Layout.mem_tables_of_table? found, path, own, declared, named⟩
  · rintro ⟨child, listed, path, own, declared, named⟩
    obtain ⟨place, bound⟩ := (Layout.exists_mem_repeats_iff form member).2 declared
    obtain ⟨place', found⟩ := Layout.mem_tables_iff.1 listed
    have known := (Layout.laid_infer form).placeOf?_of_table? found own
    have leads := Layout.bindsPlaces_infer form table member path place bound
    obtain rfl := Option.some.inj (known.symm.trans leads)
    exact ⟨path, place', child, bound, found, named⟩

/-- Only a child table and a column can share a key. -/
theorem BuiltFrom.nodup_memberNames_iff
    (built : BuiltFrom (ofForm form baseUrl) submission row table answers) :
    row.memberNames.Nodup ↔ ∀ name ∈ row.childTables, name ∉ row.columns.keys := by
  have valid := Layout.wellNamed_infer form table built.mem_tables
  have links := Row.linkMembers_sublist row.id row.parent
  have distinct : row.childTables.Nodup := by
    rw [built.childTables_eq]
    exact Sequence.nodup_eraseDups _
  have unlinked : ∀ name ∈ row.childTables, name ∉ linkColumns := by
    intro name member
    obtain ⟨child, listed, path, own, -, rfl⟩ := built.mem_childTables.1 member
    exact (Layout.namesApart_infer form).unlinked child listed (by rw [own]; simp)
  have front : ((Row.linkMembers row.id row.parent).map Prod.fst ++ row.columns.keys).Nodup := by
    rw [built.keys_eq]
    exact valid.distinct.sublist (links.append_right _)
  rw [Row.memberNames_eq, List.nodup_append']
  constructor
  · rintro ⟨-, -, apart⟩ name child column
    exact apart (List.mem_append_right _ column) child
  · intro apart
    refine ⟨front, distinct, fun name key child => ?_⟩
    rcases List.mem_append.1 key with link | column
    · exact unlinked name child (links.subset link)
    · exact apart name child column

/-- The keys of a written row are distinct just if no column of the row has the name of a child
table that is declared in the row's table but was declared first in another one. -/
theorem nodup_memberNames_of_flatten (form : Form) (baseUrl : String) (submission : Submission)
    (root : Row) (ok : (ofForm form baseUrl).flatten submission = .ok root) :
    ∀ row ∈ root.withDescendants, ∃ table ∈ (Layout.infer form).tables, row.table = table.name ∧
      (row.memberNames.Nodup ↔
        ∀ child ∈ (Layout.infer form).tables, ∀ path, child.repeatPath = some path →
          (table.repeatPath, path) ∈ form.repeats →
          Entry.firstInside? form.entries path ≠ some table.repeatPath →
          child.name ∉ row.columns.keys) := by
  intro row member
  obtain ⟨table, answers, built⟩ := (BuiltFrom.of_flatten ok).exists_of_mem_withDescendants member
  refine ⟨table, built.mem_tables, built.table_eq, ?_⟩
  rw [built.nodup_memberNames_iff]
  constructor
  · intro apart child listed path own declared _
    exact apart child.name (built.mem_childTables.2 ⟨child, listed, path, own, declared, rfl⟩)
  · intro apart name member
    obtain ⟨child, listed, path, own, declared, rfl⟩ := built.mem_childTables.1 member
    by_cases first : Entry.firstInside? form.entries path = some table.repeatPath
    · have reserved := Layout.reservesFirst_infer form table built.mem_tables child listed path own
      rw [built.keys_eq]
      exact (reserved first).2
    · exact apart child listed path own declared first

def sharedChild : Form where
  idString := "shared"
  projectId := 1
  title := "Shared child"
  fields := [⟨"a", .repeatGroup, [], [⟨"x", .repeatGroup, [], []⟩]⟩,
    ⟨"b", .repeatGroup, [], [⟨"x", .repeatGroup, [], []⟩, ⟨"b/x", .text, [], []⟩]⟩]

def sharedChildAnswers : Submission :=
  ⟨[("_id", .ofNat 1), ("b", .array [.object [("b/x", .string "v"), ("x", .array [.object []])]])]⟩

def sharedChildRow : Row :=
  ⟨"data", 1, none, [], ["a", "b"],
    [⟨"b", 4, some ⟨1, "data"⟩, [("x", .text "v")], ["x"],
      [⟨"x", 16, some ⟨4, "b"⟩, [], [], []⟩]⟩]⟩

/-- The column and the child table of the row below have one key. -/
theorem not_nodup_sharedChild :
    (ofForm sharedChild "").flatten sharedChildAnswers = .ok sharedChildRow ∧
      ∃ row ∈ sharedChildRow.withDescendants, ¬ row.memberNames.Nodup ∧
        ∃ table ∈ (Layout.infer sharedChild).tables, row.table = table.name ∧
          ∃ child ∈ (Layout.infer sharedChild).tables, ∃ path, child.repeatPath = some path ∧
            (table.repeatPath, path) ∈ sharedChild.repeats ∧
            Entry.firstInside? sharedChild.entries path ≠ some table.repeatPath ∧
            child.name ∈ row.columns.keys := by
  have ok : (ofForm sharedChild "").flatten sharedChildAnswers = .ok sharedChildRow := by
    rw [← flattenTo_eq_flatten 3]
    decide +kernel
  have clash : ∃ row ∈ sharedChildRow.withDescendants, ¬ row.memberNames.Nodup := by decide
  obtain ⟨row, member, clash⟩ := clash
  obtain ⟨table, listed, named, apart⟩ :=
    nodup_memberNames_of_flatten sharedChild "" sharedChildAnswers sharedChildRow ok row member
  refine ⟨ok, row, member, clash, table, listed, named, ?_⟩
  rw [apart] at clash
  push Not at clash
  exact clash

end Exporter

end SurveyTables
