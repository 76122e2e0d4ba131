import SurveyTables.Layout.Basic
import SurveyTables.Proofs.Form.Walk

/-! How a layout grows. The layout of a form is a fold over the entries of the form's walk, each of
which changes or opens tables but moves none. -/
namespace SurveyTables

namespace Table

/-- Reserves the name of a new child table and binds the rows of it. -/
def adopt (table : Table) (name path : String) (child : Nat) : Table :=
  (table.reserve name).bindRows path child

@[simp] theorem repeatPath_bindRows (table : Table) (path : String) (child : Nat) :
    (table.bindRows path child).repeatPath = table.repeatPath := rfl

@[simp] theorem repeatPath_adopt (table : Table) (name path : String) (child : Nat) :
    (table.adopt name path child).repeatPath = table.repeatPath := rfl

@[simp] theorem repeatPath_addField (table : Table) (field : Field) :
    (table.addField field).repeatPath = table.repeatPath := by
  unfold addField
  dsimp only
  split <;> rfl

end Table

namespace Layout

@[simp] theorem table?_modifyTable (layout : Layout) (place i : Nat) (f : Table → Table) :
    (layout.modifyTable place f).table? i =
      (layout.table? i).map fun table => if place = i then f table else table := by
  rw [table?, tables_modifyTable, List.getElem?_modify, table?]
  by_cases same : place = i <;> simp [same]

theorem length_modifyTable (layout : Layout) (place : Nat) (f : Table → Table) :
    (layout.modifyTable place f).tables.length = layout.tables.length := by
  rw [tables_modifyTable, List.length_modify]

theorem table?_append (layout : Layout) (table : Table) (i : Nat) :
    (layout.append table).table? i =
      if i = layout.tables.length then some table else layout.table? i := by
  rw [table?, tables_append, table?]
  split
  · next last => simp [last]
  · next other =>
    rcases Nat.lt_or_ge i layout.tables.length with inside | outside
    · exact List.getElem?_append_left inside
    · rw [List.getElem?_eq_none outside, List.getElem?_eq_none]
      simp
      omega

theorem mem_tables_iff {layout : Layout} {table : Table} :
    table ∈ layout.tables ↔ ∃ place, layout.table? place = some table := List.mem_iff_getElem?

theorem mem_tables_of_table? {layout : Layout} {place : Nat} {table : Table}
    (found : layout.table? place = some table) : table ∈ layout.tables :=
  List.mem_of_getElem? found

theorem lt_length_of_table? {layout : Layout} {place : Nat} {table : Table}
    (found : layout.table? place = some table) : place < layout.tables.length :=
  (List.getElem?_eq_some_iff.1 found).1

theorem root_mem_tables (layout : Layout) : layout.root ∈ layout.tables := List.mem_cons_self

theorem forall_mem_modifyTable {P : Table → Prop} {layout : Layout} {place : Nat}
    {f : Table → Table} (all : ∀ table ∈ layout.tables, P table)
    (keeps : ∀ table ∈ layout.tables, P table → P (f table)) :
    ∀ table ∈ (layout.modifyTable place f).tables, P table := by
  intro table member
  obtain ⟨i, found⟩ := mem_tables_iff.1 member
  rw [table?_modifyTable] at found
  obtain ⟨old, old?, rfl⟩ := Option.map_eq_some_iff.1 found
  have member := mem_tables_of_table? old?
  split
  · exact keeps old member (all old member)
  · exact all old member

theorem forall_mem_append {P : Table → Prop} {layout : Layout} {opened : Table}
    (all : ∀ table ∈ layout.tables, P table) (new : P opened) :
    ∀ table ∈ (layout.append opened).tables, P table := by
  intro table member
  rw [tables_append, List.mem_append, List.mem_singleton] at member
  rcases member with member | rfl
  · exact all table member
  · exact new

/-- What a change to a table keeps is the same in the whole layout. -/
theorem map_tables_modifyTable {α : Type} {g : Table → α} {layout : Layout} {place : Nat}
    {f : Table → Table} (keeps : ∀ table, g (f table) = g table) :
    (layout.modifyTable place f).tables.map g = layout.tables.map g := by
  apply List.ext_getElem?
  intro i
  have here := table?_modifyTable layout place i f
  simp only [table?] at here
  rw [List.getElem?_map, List.getElem?_map, here]
  cases layout.tables[i]? with
  | none => rfl
  | some table => by_cases same : place = i <;> simp [same, keeps]

/-! ### Repeat paths -/

def repeatPaths (layout : Layout) : List (Option String) := layout.tables.map Table.repeatPath

theorem repeatPaths_modifyTable {layout : Layout} {place : Nat} {f : Table → Table}
    (keeps : ∀ table, (f table).repeatPath = table.repeatPath) :
    (layout.modifyTable place f).repeatPaths = layout.repeatPaths :=
  map_tables_modifyTable keeps

theorem repeatPaths_append (layout : Layout) (table : Table) :
    (layout.append table).repeatPaths = layout.repeatPaths ++ [table.repeatPath] := by
  rw [repeatPaths, tables_append, List.map_append]
  rfl

theorem placeOf?_eq (layout : Layout) (path : String) :
    layout.placeOf? path = layout.repeatPaths.findIdx? (· = some path) := by
  rw [repeatPaths, List.findIdx?_map]
  rfl

theorem placeOf?_congr {layout other : Layout} (same : other.repeatPaths = layout.repeatPaths)
    (path : String) : other.placeOf? path = layout.placeOf? path := by
  rw [placeOf?_eq, same, placeOf?_eq]

theorem placeOf?_append_of_some {layout : Layout} {path : String} {place : Nat}
    (known : layout.placeOf? path = some place) (table : Table) :
    (layout.append table).placeOf? path = some place := by
  rw [placeOf?_eq] at *
  rw [repeatPaths_append, List.findIdx?_append, known]
  rfl

theorem table?_of_placeOf? {layout : Layout} {path : String} {place : Nat}
    (known : layout.placeOf? path = some place) :
    ∃ table, layout.table? place = some table ∧ table.repeatPath = some path := by
  obtain ⟨inside, holds, -⟩ := List.findIdx?_eq_some_iff_getElem.1 known
  exact ⟨layout.tables[place], List.getElem?_eq_getElem inside, by simpa using holds⟩

def placeInside? (layout : Layout) : Option String → Option Nat
  | none => some 0
  | some path => layout.placeOf? path

theorem placeInside?_congr {layout other : Layout}
    (same : other.repeatPaths = layout.repeatPaths) (inside : Option String) :
    other.placeInside? inside = layout.placeInside? inside := by
  cases inside with
  | none => rfl
  | some path => exact placeOf?_congr same path

theorem placeInside?_modifyTable {layout : Layout} {inside : Option String} {place parent : Nat}
    {f : Table → Table} (known : layout.placeInside? inside = some place)
    (keeps : ∀ table, (f table).repeatPath = table.repeatPath) :
    (layout.modifyTable parent f).placeInside? inside = some place := by
  rw [placeInside?_congr (repeatPaths_modifyTable keeps), known]

theorem placeInside?_append_of_some {layout : Layout} {inside : Option String} {place : Nat}
    (known : layout.placeInside? inside = some place) (table : Table) :
    (layout.append table).placeInside? inside = some place := by
  cases inside with
  | none => exact known
  | some path => exact placeOf?_append_of_some known table

/-! ### The layout as a fold -/

def initial (connection : String) : Layout := ⟨Table.start rootName connection none, []⟩

def enter (connection : String) (layout : Layout) (entry : Entry) : Layout :=
  let place := (layout.placeInside? entry.inside).getD 0
  if entry.field.kind = .repeatGroup then
    let (child, opened) := openTable connection entry.field.path place layout
    opened.modifyTable place (·.bindRows entry.field.path child)
  else layout.modifyTable place (·.addField entry.field)

theorem placeInside?_openTable {layout : Layout} {inside : Option String} {place : Nat}
    (known : layout.placeInside? inside = some place) (connection path : String) (parent : Nat) :
    (openTable connection path parent layout).2.placeInside? inside = some place := by
  unfold openTable
  split
  · exact known
  · apply placeInside?_append_of_some
    exact placeInside?_modifyTable known fun _ => rfl

theorem placeInside?_enter {layout : Layout} {inside : Option String} {place : Nat}
    (known : layout.placeInside? inside = some place) (connection : String) (entry : Entry) :
    (layout.enter connection entry).placeInside? inside = some place := by
  unfold enter
  dsimp only
  split
  · exact placeInside?_modifyTable (placeInside?_openTable known ..) fun _ => rfl
  · exact placeInside?_modifyTable known fun _ => Table.repeatPath_addField ..

theorem placeInside?_foldl_enter {layout : Layout} {inside : Option String} {place : Nat}
    (known : layout.placeInside? inside = some place) (connection : String)
    (entries : List Entry) :
    (entries.foldl (enter connection) layout).placeInside? inside = some place := by
  induction entries generalizing layout with
  | nil => exact known
  | cons entry entries ih => exact ih (placeInside?_enter known connection entry)

/-- After a repeat group has been entered, its table has the place that `openTable` tells. -/
theorem placeOf?_openTable (connection path : String) (parent : Nat) (layout : Layout) :
    (openTable connection path parent layout).2.placeOf? path =
      some (openTable connection path parent layout).1 := by
  unfold openTable
  split
  · next known => exact known
  · next unknown =>
    rw [placeOf?_eq] at unknown
    rw [placeOf?_eq, repeatPaths_append, repeatPaths_modifyTable, List.findIdx?_append, unknown]
    · simp [Table.start, repeatPaths]
    · exact fun _ => rfl

mutual

theorem addField_eq_foldl (connection : String) (inside : Option String) (place : Nat)
    (layout : Layout) (known : layout.placeInside? inside = some place) :
    ∀ field : Field,
      addField connection place field layout =
        (field.entries inside).foldl (enter connection) layout
  | ⟨path, kind, choices, children⟩ => by
    cases kind with
    | note => rfl
    | group => exact addFields_eq_foldl connection inside place layout known children
    | repeatGroup =>
      have entered : enter connection layout ⟨inside, path, .repeatGroup, choices, []⟩ =
          (openTable connection path place layout).2.modifyTable place
            (·.bindRows path (openTable connection path place layout).1) := by
        simp [enter, known]
      have child : (enter connection layout ⟨inside, path, .repeatGroup, choices, []⟩).placeInside?
          (some path) = some (openTable connection path place layout).1 := by
        have opened : (openTable connection path place layout).2.placeInside? (some path) = _ :=
          placeOf?_openTable ..
        rw [entered]
        exact placeInside?_modifyTable opened fun _ => rfl
      have below := addFields_eq_foldl connection (some path) _ _ child children
      rw [entered] at below
      rw [Field.entries_repeatGroup, List.foldl_cons, entered]
      exact below
    | _ => simp [addField, FieldKind.carriesData, Field.entries, enter, known, Table.addField,
        Table.contribution, Table.baseName, Field.choiceNames]

theorem addFields_eq_foldl (connection : String) (inside : Option String) (place : Nat)
    (layout : Layout) (known : layout.placeInside? inside = some place) :
    ∀ fields : List Field,
      addFields connection place fields layout =
        (Field.listEntries inside fields).foldl (enter connection) layout
  | [] => rfl
  | field :: fields => by
    rw [addFields, Field.listEntries, List.foldl_append,
      addField_eq_foldl connection inside place layout known field]
    exact addFields_eq_foldl connection inside place _
      (placeInside?_foldl_enter known connection _) fields

end

/-- The layout of a form depends on the entries of its walk alone. -/
theorem infer_eq_foldl (form : Form) :
    infer form = form.entries.foldl (enter form.connectionName) (initial form.connectionName) :=
  addFields_eq_foldl form.connectionName none 0 (initial form.connectionName) rfl form.fields

end Layout

end SurveyTables
