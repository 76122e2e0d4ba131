import SurveyTables.Proofs.Flatten.Provenance

/-! The order of rows. Where no path is declared twice, the child tables of a table stand in the
order in which the layout lists them, and so do the rows below a row. -/
namespace SurveyTables

namespace Layout

def nameFor (layout : Layout) (path : String) : String :=
  ((layout.placeOf? path).bind layout.table?).elim "" Table.name

theorem nameFor_of_placeOf? {layout : Layout} {path : String} {place : Nat} {table : Table}
    (known : layout.placeOf? path = some place) (found : layout.table? place = some table) :
    layout.nameFor path = table.name := by
  rw [nameFor, known, Option.bind_some, found]
  rfl

variable {form : Form} {table : Table}

/-- The tables are named in the order in which their paths are declared. -/
theorem names_infer (form : Form) :
    (infer form).names =
      (infer form).root.name :: (Entry.paths form.entries).eraseDups.map (infer form).nameFor := by
  have laid := laid_infer form
  have named : ∀ table ∈ (infer form).others,
      table.name = table.repeatPath.elim "" (infer form).nameFor := by
    intro table member
    obtain ⟨place, found⟩ := mem_tables_iff.1 (List.mem_cons_of_mem (infer form).root member)
    have listed : table.repeatPath ∈ (infer form).others.map Table.repeatPath :=
      List.mem_map_of_mem member
    rw [(List.cons.inj laid).2] at listed
    obtain ⟨path, -, own⟩ := List.mem_map.1 listed
    have known := laid.placeOf?_of_table? found own.symm
    rw [← own]
    exact (nameFor_of_placeOf? known found).symm
  have others : (infer form).others.map Table.name =
      ((infer form).others.map Table.repeatPath).map
        (fun path => path.elim "" (infer form).nameFor) := by
    rw [List.map_map]
    exact List.map_congr_left named
  rw [names, tables, List.map_cons, others, (List.cons.inj laid).2, List.map_map]
  rfl

theorem childNames_infer (form : Form) (member : table ∈ (infer form).tables) :
    (infer form).childNames table =
      ((table.repeats.map Prod.fst).map (infer form).nameFor).eraseDups := by
  have named : ∀ bound ∈ table.repeats, ((infer form).table? bound.2).map Table.name =
      some ((infer form).nameFor bound.1) := by
    rintro ⟨path, place⟩ bound
    have known := bindsPlaces_infer form table member path place bound
    obtain ⟨child, found, -⟩ := table?_of_placeOf? known
    rw [found, nameFor_of_placeOf? known found]
    rfl
  have all : table.repeats.filterMap (fun bound => ((infer form).table? bound.2).map Table.name) =
      table.repeats.map fun bound => (infer form).nameFor bound.1 := by
    rw [← List.filterMap_eq_map]
    exact List.filterMap_congr named
  rw [childNames, Table.childTables_eq, List.filterMap_map, List.map_map]
  exact congrArg List.eraseDups all

theorem repeats_sublist (form : Form) (member : table ∈ (infer form).tables) :
    (table.repeats.map Prod.fst).Sublist (Entry.paths form.entries) := by
  rw [bindsDeclared_infer form table member]
  exact List.filter_sublist.map Prod.snd

theorem map_nameFor_sublist (distinct : (Entry.paths form.entries).Nodup)
    (member : table ∈ (infer form).tables) :
    ((table.repeats.map Prod.fst).map (infer form).nameFor).Sublist (infer form).names := by
  rw [names_infer, Sequence.eraseDups_of_nodup distinct]
  exact ((repeats_sublist form member).map _).cons _

theorem nodup_map_nameFor (distinct : (Entry.paths form.entries).Nodup)
    (member : table ∈ (infer form).tables) :
    ((table.repeats.map Prod.fst).map (infer form).nameFor).Nodup :=
  (namesApart_infer form).distinct.sublist (map_nameFor_sublist distinct member)

theorem childNames_of_distinct (distinct : (Entry.paths form.entries).Nodup)
    (member : table ∈ (infer form).tables) :
    (infer form).childNames table = (table.repeats.map Prod.fst).map (infer form).nameFor := by
  rw [childNames_infer form member]
  exact Sequence.eraseDups_of_nodup (nodup_map_nameFor distinct member)

end Layout

namespace Exporter.BuiltFrom

variable {form : Form} {baseUrl : String} {submission : Submission} {row : Row} {table : Table}
  {answers : Keyed Json}

/-- The rows below a row are listed table by table as they were made. -/
theorem childRows_eq (distinct : (Entry.paths form.entries).Nodup)
    (built : BuiltFrom (ofForm form baseUrl) submission row table answers) :
    row.childRows = row.children := by
  have member := built.mem_tables
  have made := built.forall₂_elements
  rw [Table.elements_eq] at made
  have labels : (table.repeats.map fun bound => (Layout.infer form).nameFor bound.1).Nodup := by
    have apart := Layout.nodup_map_nameFor distinct member
    rwa [List.map_map] at apart
  have grouped := Sequence.flatMap_filter_of_forall₂ Row.table labels made ?_
  · rw [Row.childRows, built.childTables_eq, layout_ofForm,
      Layout.childNames_of_distinct distinct member, List.map_map]
    exact grouped
  · rintro ⟨path, place⟩ bound element listed child ⟨ordinal, below⟩
    obtain ⟨-, found, -, -, below⟩ := below
    have leads := Layout.bindsPlaces_infer form table member path place bound
    rw [below.table_eq]
    refine (Layout.nameFor_of_placeOf? leads ?_).symm
    simp only [Binding.elements] at listed
    split at listed <;> simp at listed
    obtain ⟨item, -, -, rfl, -⟩ := listed
    exact found

theorem childTables_sublist (distinct : (Entry.paths form.entries).Nodup)
    (built : BuiltFrom (ofForm form baseUrl) submission row table answers) :
    row.childTables.Sublist (Layout.infer form).names := by
  rw [built.childTables_eq, layout_ofForm, Layout.childNames_of_distinct distinct built.mem_tables]
  exact Layout.map_nameFor_sublist distinct built.mem_tables

/-- The rows below a row can be collected from all tables of the layout in turn. -/
theorem flatMap_names_childrenIn (distinct : (Entry.paths form.entries).Nodup)
    (built : BuiltFrom (ofForm form baseUrl) submission row table answers) :
    (Layout.infer form).names.flatMap row.childrenIn = row.children := by
  have names := (Layout.namesApart_infer form).distinct
  rw [Sequence.flatMap_eq_of_sublist (built.childTables_sublist distinct) names]
  · exact built.childRows_eq distinct
  · intro name _ missing
    rw [Row.childrenIn, List.filter_eq_nil_iff]
    intro child member same
    rw [decide_eq_true_eq] at same
    rw [← built.mem_childRows_iff, Row.mem_childRows, same] at member
    exact missing member.2

end Exporter.BuiltFrom

end SurveyTables
