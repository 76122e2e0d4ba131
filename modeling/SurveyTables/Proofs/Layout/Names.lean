import SurveyTables.Proofs.Layout.Columns

/-! The names of tables. A new table gets a name that no table has and that is not taken in the
table it is opened from, so the tables of a layout are told apart by name, and a table's columns
keep clear of the names of the tables that were opened from it. -/
namespace SurveyTables.Layout

theorem toList_numbered (name : String) (n : Nat) :
    (numbered name n).toList = name.toList ++ '_' :: (Text.natNumeral n).toList := by
  simp [numbered, String.toList_append]

theorem numbered_injective {name : String} {m n : Nat} (h : numbered name m = numbered name n) :
    m = n := by
  have chars := congrArg String.toList h
  rw [toList_numbered, toList_numbered] at chars
  have numeral := List.cons.inj (List.append_cancel_left chars)
  exact Text.natNumeral_injective (String.toList_injective numeral.2)

theorem numbered_ne (name : String) (n : Nat) : numbered name n ≠ name := by
  intro h
  have length := congrArg (List.length ∘ String.toList) h
  simp only [Function.comp_apply, toList_numbered, List.length_append, List.length_cons] at length
  omega

/-- If a name is in use, one of as many numbered names as there are names in use is free. -/
theorem exists_numbered_not_mem {used : List String} {name : String} (inUse : name ∈ used) :
    ∃ n ∈ List.range' 2 used.length, numbered name n ∉ used := by
  by_contra none
  simp only [not_exists, not_and, not_not] at none
  have distinct : (name :: (List.range' 2 used.length).map (numbered name)).Nodup := by
    rw [List.nodup_cons]
    constructor
    · rw [List.mem_map]
      rintro ⟨n, -, same⟩
      exact numbered_ne name n same
    · exact List.Nodup.map (fun _ _ => numbered_injective) List.nodup_range'
  have inside : name :: (List.range' 2 used.length).map (numbered name) ⊆ used := by
    intro candidate member
    rcases List.mem_cons.1 member with rfl | member
    · exact inUse
    · obtain ⟨n, inRange, rfl⟩ := List.mem_map.1 member
      exact none n inRange
  have length := distinct.length_le_of_subset inside
  simp only [List.length_cons, List.length_map, List.length_range'] at length
  omega

theorem freeName_not_mem (used : List String) (name : String) : freeName used name ∉ used := by
  unfold freeName
  split
  · next inUse =>
    rw [List.contains_iff_mem] at inUse
    obtain ⟨n, member, free⟩ := exists_numbered_not_mem inUse
    have found : (((List.range' 2 used.length).map (numbered name)).find?
        (!used.contains ·)).isSome := by
      rw [List.find?_isSome]
      exact ⟨numbered name n, List.mem_map_of_mem member, by simpa using free⟩
    obtain ⟨candidate, found⟩ := Option.isSome_iff_exists.1 found
    have unused := List.find?_some found
    rw [found]
    simpa using unused
  · next free => simpa using free

/-- The names that a new table must avoid: those of all tables, and those taken in its parent. -/
theorem mem_usedNames {layout : Layout} {place : Nat} {table : Table}
    (found : layout.table? place = some table) {name : String} :
    name ∈ layout.usedNames place ↔ name ∈ layout.names ∨ name ∈ table.taken := by
  rw [usedNames, found, List.mem_append]
  rfl

theorem names_modifyTable {layout : Layout} {place : Nat} {f : Table → Table}
    (keeps : ∀ table, (f table).name = table.name) :
    (layout.modifyTable place f).names = layout.names :=
  map_tables_modifyTable keeps

theorem names_append (layout : Layout) (table : Table) :
    (layout.append table).names = layout.names ++ [table.name] := by
  rw [names, tables_append, List.map_append]
  rfl

@[simp] theorem name_addField (table : Table) (field : Field) :
    (table.addField field).name = table.name := by
  rcases Table.addField_cases table field with same | ⟨-, -, added⟩
  · rw [same]
  · rw [added]
    rfl

@[simp] theorem name_bindRows (table : Table) (path : String) (child : Nat) :
    (table.bindRows path child).name = table.name := rfl

@[simp] theorem name_adopt (table : Table) (name path : String) (child : Nat) :
    (table.adopt name path child).name = table.name := rfl

/-- Tables are told apart by name, and no table of a repeat group has the name of a link
column. -/
structure NamesApart (layout : Layout) : Prop where
  distinct : layout.names.Nodup
  unlinked : ∀ table ∈ layout.tables, table.repeatPath ≠ none → table.name ∉ linkColumns

variable {connection : String} {before : List Entry} {layout next : Layout} {entry : Entry}

theorem namesApart_step (step : Step connection before layout entry next)
    (named : ∀ table ∈ layout.tables, table.WellNamed) (valid : NamesApart layout) :
    NamesApart next := by
  cases step with
  | field =>
    constructor
    · rw [names_modifyTable fun _ => name_addField ..]
      exact valid.distinct
    · refine forall_mem_modifyTable valid.unlinked fun table _ holds => ?_
      rwa [name_addField, Table.repeatPath_addField]
  | sharing =>
    constructor
    · rw [names_modifyTable fun _ => name_bindRows ..]
      exact valid.distinct
    · exact forall_mem_modifyTable valid.unlinked fun table _ holds => holds
  | @opening place table path name found own declares unknown fresh =>
    have unused : name ∉ layout.usedNames place := fresh ▸ freeName_not_mem _ _
    rw [mem_usedNames found, not_or] at unused
    constructor
    · rw [names_append, names_modifyTable fun _ => name_adopt .., List.nodup_append']
      refine ⟨valid.distinct, List.nodup_singleton _, ?_⟩
      intro other member same
      obtain rfl := List.mem_singleton.1 same
      exact unused.1 member
    · refine forall_mem_append (forall_mem_modifyTable valid.unlinked fun _ _ holds => holds) ?_
      intro _ link
      have wellNamed := named table (mem_tables_of_table? found)
      exact unused.2 (wellNamed.taken name (List.mem_append_left _ link))

theorem namesApart_initial (connection : String) : NamesApart (initial connection) := by
  constructor
  · exact List.nodup_singleton _
  · intro table member path
    obtain rfl := List.mem_singleton.1 member
    exact absurd rfl path

theorem namesApart_infer (form : Form) : NamesApart (infer form) :=
  infer_induction_wellNamed form (namesApart_initial _)
    fun _ _ _ _ _ _ named step valid => namesApart_step step named valid

theorem NamesApart.eq_of_name {layout : Layout} (apart : NamesApart layout) {table other : Table}
    (member : table ∈ layout.tables) (member' : other ∈ layout.tables)
    (same : table.name = other.name) : table = other :=
  List.inj_on_of_nodup_map apart.distinct member member' same

theorem NamesApart.schema?_eq_some {layout : Layout} (apart : NamesApart layout) {table : Table}
    (member : table ∈ layout.tables) : layout.schema? table.name = some table.schema := by
  have found : (layout.tables.find? (·.name = table.name)).isSome := by
    rw [List.find?_isSome]
    exact ⟨table, member, by simp⟩
  obtain ⟨other, first⟩ := Option.isSome_iff_exists.1 found
  have named : other.name = table.name := by simpa using List.find?_some first
  obtain rfl := apart.eq_of_name (List.mem_of_find?_eq_some first) member named
  rw [schema?, first]
  rfl

end SurveyTables.Layout
