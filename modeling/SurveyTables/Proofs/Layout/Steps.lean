import SurveyTables.Proofs.Layout.Growth
import SurveyTables.Proofs.Sequence

/-! The steps by which a layout grows, and the induction over them. After any part of a walk the
tables stand in the order in which their repeat paths were declared first; hence each entry finds
its table, and a path that was declared before finds the table that it shares. -/
namespace SurveyTables.Layout

/-- The tables of a layout are those of the repeat paths that a walk has declared. -/
def Laid (before : List Entry) (layout : Layout) : Prop :=
  layout.repeatPaths = none :: (Entry.paths before).eraseDups.map some

namespace Laid

variable {before : List Entry} {layout : Layout}

theorem nodup (laid : Laid before layout) : layout.repeatPaths.Nodup := by
  rw [laid, List.nodup_cons]
  refine ⟨by simp, ?_⟩
  exact (Sequence.nodup_eraseDups _).map fun _ _ => Option.some.inj

theorem root (laid : Laid before layout) : layout.root.repeatPath = none :=
  (List.cons.inj laid).1

theorem place_unique (laid : Laid before layout) {i j : Nat} {table other : Table}
    (left : layout.table? i = some table) (right : layout.table? j = some other)
    (same : table.repeatPath = other.repeatPath) : i = j := by
  have at? {k : Nat} {found : Table} (known : layout.table? k = some found) :
      layout.repeatPaths[k]? = some found.repeatPath := by
    rw [repeatPaths, List.getElem?_map]
    exact congrArg (Option.map Table.repeatPath) known
  have inside : i < layout.repeatPaths.length := by
    simpa [repeatPaths] using lt_length_of_table? left
  refine (List.getElem?_inj inside laid.nodup).1 ?_
  rw [at? left, at? right, same]

theorem placeInside?_iff (laid : Laid before layout) {inside : Option String} {place : Nat} :
    layout.placeInside? inside = some place ↔
      ∃ table, layout.table? place = some table ∧ table.repeatPath = inside := by
  constructor
  · intro known
    cases inside with
    | none =>
      obtain rfl := Option.some.inj known
      exact ⟨layout.root, rfl, laid.root⟩
    | some path => exact table?_of_placeOf? known
  · rintro ⟨table, found, rfl⟩
    cases path : table.repeatPath with
    | none =>
      have rooted : layout.table? 0 = some layout.root := rfl
      exact congrArg some (laid.place_unique rooted found (laid.root.trans path.symm))
    | some path' =>
      have known : (layout.placeOf? path').isSome := by
        rw [placeOf?, List.findIdx?_isSome, List.any_eq_true]
        exact ⟨table, mem_tables_of_table? found, by simpa using path⟩
      obtain ⟨i, known⟩ := Option.isSome_iff_exists.1 known
      obtain ⟨other, found', same⟩ := table?_of_placeOf? known
      rw [laid.place_unique found' found (same.trans path.symm)] at known
      exact known

theorem placeOf?_of_table? (laid : Laid before layout) {place : Nat} {table : Table}
    {path : String} (found : layout.table? place = some table)
    (own : table.repeatPath = some path) : layout.placeOf? path = some place :=
  have known : layout.placeInside? (some path) = some place :=
    laid.placeInside?_iff.2 ⟨table, found, own⟩
  known

theorem mem_paths_of_mem_tables (laid : Laid before layout) {table : Table} {path : String}
    (member : table ∈ layout.tables) (own : table.repeatPath = some path) :
    path ∈ Entry.paths before := by
  have here : some path ∈ layout.repeatPaths := own ▸ List.mem_map_of_mem member
  rw [laid] at here
  simpa [List.mem_eraseDups] using here

theorem placeOf?_eq_none_iff (laid : Laid before layout) {path : String} :
    layout.placeOf? path = none ↔ path ∉ Entry.paths before := by
  rw [placeOf?_eq, laid, List.findIdx?_eq_none_iff]
  constructor
  · intro none member
    simpa using none (some path) (by simpa [List.mem_eraseDups] using member)
  · rintro unknown inside member
    rcases List.mem_cons.1 member with rfl | member
    · simp
    · obtain ⟨other, declared, rfl⟩ := List.mem_map.1 member
      have : other ≠ path := fun same => unknown (same ▸ List.mem_eraseDups.1 declared)
      simpa using this

theorem exists_table (laid : Laid before layout) {inside : Option String}
    (known : ∀ path, inside = some path → path ∈ Entry.paths before) :
    ∃ place table, layout.table? place = some table ∧ table.repeatPath = inside := by
  cases inside with
  | none => exact ⟨0, layout.root, rfl, laid.root⟩
  | some path =>
    have declared := known path rfl
    cases place : layout.placeOf? path with
    | none => exact absurd declared (laid.placeOf?_eq_none_iff.1 place)
    | some place' => exact ⟨place', table?_of_placeOf? place⟩

/-- What holds of all tables when one of them, known by its repeat path, is changed. -/
theorem forall_mem_modifyTable {P : Table → Prop} (laid : Laid before layout) {place : Nat}
    {table : Table} {f : Table → Table} (found : layout.table? place = some table)
    (others : ∀ other ∈ layout.tables, other.repeatPath ≠ table.repeatPath → P other)
    (changed : P (f table)) : ∀ other ∈ (layout.modifyTable place f).tables, P other := by
  intro other member
  obtain ⟨i, found'⟩ := mem_tables_iff.1 member
  rw [table?_modifyTable] at found'
  obtain ⟨old, old?, rfl⟩ := Option.map_eq_some_iff.1 found'
  by_cases same : place = i
  · subst same
    obtain rfl : table = old := Option.some.inj (found.symm.trans old?)
    simpa using changed
  · simp only [if_neg same]
    refine others old (mem_tables_of_table? old?) ?_
    exact fun equal => same (laid.place_unique found old? equal.symm)

/-- Nothing has been declared below a repeat path before the path itself. -/
theorem inside_ne (laid : Laid before layout) (placed : Entry.Placed before) {entry : Entry}
    {place : Nat} {table : Table} {path : String} (found : layout.table? place = some table)
    (own : table.repeatPath = entry.inside) (unknown : path ∉ Entry.paths before) :
    ∀ other ∈ before ++ [entry], other.inside ≠ some path := by
  intro other member below
  rcases List.mem_append.1 member with earlier | last
  · exact unknown (placed.mem_paths_of_mem earlier below)
  · obtain rfl := List.mem_singleton.1 last
    exact unknown (laid.mem_paths_of_mem_tables (mem_tables_of_table? found) (own.trans below))

end Laid

/-- What one entry does to a layout in which its table is found. -/
inductive Step (connection : String) (before : List Entry) (layout : Layout) (entry : Entry) :
    Layout → Prop
  | field {place : Nat} {table : Table} (found : layout.table? place = some table)
      (own : table.repeatPath = entry.inside) (plain : entry.repeat? = none) :
      Step connection before layout entry (layout.modifyTable place (·.addField entry.field))
  | sharing {place child : Nat} {table : Table} {path : String}
      (found : layout.table? place = some table) (own : table.repeatPath = entry.inside)
      (declares : entry.repeat? = some (entry.inside, path))
      (known : layout.placeOf? path = some child) :
      Step connection before layout entry (layout.modifyTable place (·.bindRows path child))
  | opening {place : Nat} {table : Table} {path name : String}
      (found : layout.table? place = some table) (own : table.repeatPath = entry.inside)
      (declares : entry.repeat? = some (entry.inside, path))
      (unknown : path ∉ Entry.paths before)
      (fresh : name = freeName (layout.usedNames place) (suggestedName (Text.leaf path))) :
      Step connection before layout entry
        ((layout.modifyTable place (·.adopt name path layout.tables.length)).append
          (Table.start name (connection ++ "_" ++ name) (some path)))

theorem tables_injective {layout other : Layout} (same : layout.tables = other.tables) :
    layout = other := by
  cases layout
  cases other
  simpa [tables] using same

theorem modifyTable_append {layout : Layout} {place : Nat} (inside : place < layout.tables.length)
    (opened : Table) (f : Table → Table) :
    (layout.append opened).modifyTable place f = (layout.modifyTable place f).append opened := by
  apply tables_injective
  apply List.ext_getElem?
  intro i
  have left := table?_modifyTable (layout.append opened) place i f
  have right := table?_append (layout.modifyTable place f) opened i
  rw [table?_append] at left
  rw [table?_modifyTable, length_modifyTable] at right
  refine left.trans (Eq.trans ?_ right.symm)
  by_cases last : i = layout.tables.length
  · simp [last, Nat.ne_of_lt inside]
  · simp [last]

theorem modifyTable_modifyTable (layout : Layout) (place : Nat) (f g : Table → Table) :
    (layout.modifyTable place f).modifyTable place g = layout.modifyTable place (g ∘ f) := by
  apply tables_injective
  rw [tables_modifyTable, tables_modifyTable, tables_modifyTable, List.modify_modify_eq]

theorem step_enter {before : List Entry} {layout : Layout} {entry : Entry} (connection : String)
    (laid : Laid before layout)
    (known : ∀ path, entry.inside = some path → path ∈ Entry.paths before) :
    Step connection before layout entry (layout.enter connection entry) := by
  obtain ⟨place, table, found, own⟩ := laid.exists_table known
  have here : layout.placeInside? entry.inside = some place :=
    laid.placeInside?_iff.2 ⟨table, found, own⟩
  by_cases repeats : entry.field.kind = .repeatGroup
  · have declares : entry.repeat? = some (entry.inside, entry.field.path) := if_pos repeats
    cases child : layout.placeOf? entry.field.path with
    | some child' =>
      have entered : layout.enter connection entry =
          layout.modifyTable place (·.bindRows entry.field.path child') := by
        simp [enter, here, repeats, openTable, child]
      rw [entered]
      exact .sharing found own declares child
    | none =>
      simp only [enter, here, repeats, openTable, child, Option.getD_some, if_true]
      rw [modifyTable_append (by rw [length_modifyTable]; exact lt_length_of_table? found),
        modifyTable_modifyTable]
      exact .opening found own declares (laid.placeOf?_eq_none_iff.1 child) rfl
  · have entered : layout.enter connection entry =
        layout.modifyTable place (·.addField entry.field) := by
      simp [enter, here, repeats]
    rw [entered]
    exact .field found own (if_neg repeats)

theorem laid_step {connection : String} {before : List Entry} {layout next : Layout}
    {entry : Entry} (laid : Laid before layout) (step : Step connection before layout entry next) :
    Laid (before ++ [entry]) next := by
  cases step with
  | field found own plain =>
    rw [Laid, repeatPaths_modifyTable (fun _ => Table.repeatPath_addField ..), laid,
      Entry.paths_append, Entry.paths_singleton_of_plain plain, List.append_nil]
  | @sharing _ _ _ path found own declares known =>
    have declared : path ∈ Entry.paths before := by
      by_contra unknown
      rw [laid.placeOf?_eq_none_iff.2 unknown] at known
      contradiction
    rw [Laid, repeatPaths_modifyTable (fun _ => Table.repeatPath_bindRows ..), laid,
      Entry.paths_append, Entry.paths_singleton declares, Sequence.eraseDups_snoc_of_mem declared]
  | @opening _ _ path _ found own declares unknown fresh =>
    rw [Laid, repeatPaths_append, repeatPaths_modifyTable (fun _ => Table.repeatPath_adopt ..),
      laid, Entry.paths_append, Entry.paths_singleton declares,
      Sequence.eraseDups_snoc_of_not_mem unknown]
    simp [Table.start]

theorem placeOf?_step {connection : String} {before : List Entry} {layout next : Layout}
    {entry : Entry} (step : Step connection before layout entry next) {path : String} {place : Nat}
    (known : layout.placeOf? path = some place) : next.placeOf? path = some place := by
  cases step with
  | field =>
    rw [placeOf?_congr (repeatPaths_modifyTable fun _ => Table.repeatPath_addField ..), known]
  | sharing =>
    rw [placeOf?_congr (repeatPaths_modifyTable fun _ => Table.repeatPath_bindRows ..), known]
  | opening =>
    apply placeOf?_append_of_some
    rw [placeOf?_congr (repeatPaths_modifyTable fun _ => Table.repeatPath_adopt ..), known]

theorem laid_initial (connection : String) : Laid [] (initial connection) := rfl

/-- An invariant that holds before a walk and that each step keeps holds of the layout of every
form, at the end of the form's walk. -/
@[elab_as_elim]
theorem infer_induction {P : List Entry → Layout → Prop} (form : Form)
    (start : P [] (initial form.connectionName))
    (step : ∀ before entry layout next, Entry.Placed before → Laid before layout →
      Step form.connectionName before layout entry next → P before layout →
      P (before ++ [entry]) next) :
    P form.entries (infer form) := by
  have run : ∀ entries, Entry.Placed entries →
      Laid entries (entries.foldl (enter form.connectionName) (initial form.connectionName)) ∧
      P entries (entries.foldl (enter form.connectionName) (initial form.connectionName)) := by
    intro entries placed
    induction placed with
    | nil => exact ⟨laid_initial _, start⟩
    | snoc placed known ih =>
      obtain ⟨laid, holds⟩ := ih
      have next := step_enter form.connectionName laid known
      rw [List.foldl_append]
      exact ⟨laid_step laid next, step _ _ _ _ placed laid next holds⟩
  rw [infer_eq_foldl]
  exact (run form.entries form.placed_entries).2

theorem laid_infer (form : Form) : Laid form.entries (infer form) :=
  infer_induction form (laid_initial _) fun _ _ _ _ _ laid step _ => laid_step laid step

end SurveyTables.Layout
