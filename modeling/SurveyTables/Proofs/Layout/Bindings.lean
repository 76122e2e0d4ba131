import SurveyTables.Proofs.Layout.Steps

/-! The repeat groups that the tables of a layout bind: in each table those that the form
declares in it, in order and as often as it does, and each binding leads to the table of its
path. -/
namespace SurveyTables

def Binding.rows? : Binding → Option (String × Nat)
  | .rows path table => some (path, table)
  | _ => none

namespace Table

def repeats (table : Table) : List (String × Nat) := table.bindings.filterMap Binding.rows?

theorem childTables_eq (table : Table) : table.childTables = table.repeats.map Prod.snd := by
  rw [childTables, repeats, List.map_filterMap]
  congr 1
  funext binding
  cases binding <;> rfl

theorem mem_repeats {table : Table} {path : String} {place : Nat} :
    (path, place) ∈ table.repeats ↔ .rows path place ∈ table.bindings := by
  rw [repeats, List.mem_filterMap]
  constructor
  · rintro ⟨binding, member, same⟩
    cases binding <;> cases same
    exact member
  · exact fun member => ⟨_, member, rfl⟩

theorem rows?_contribution (table : Table) (field : Field) :
    (table.contribution field).2.rows? = none := by
  obtain ⟨path, kind, choices, children⟩ := field
  cases kind <;> rfl

@[simp] theorem repeats_addField (table : Table) (field : Field) :
    (table.addField field).repeats = table.repeats := by
  unfold addField
  dsimp only
  split
  · simp [repeats, rows?_contribution]
  · rfl

@[simp] theorem repeats_bindRows (table : Table) (path : String) (child : Nat) :
    (table.bindRows path child).repeats = table.repeats ++ [(path, child)] := by
  simp [repeats, bindRows, Binding.rows?]

@[simp] theorem repeats_adopt (table : Table) (name path : String) (child : Nat) :
    (table.adopt name path child).repeats = table.repeats ++ [(path, child)] :=
  repeats_bindRows ..

@[simp] theorem repeats_start (name connection : String) (repeatPath : Option String) :
    (start name connection repeatPath).repeats = [] := rfl

end Table

namespace Layout

/-- The tables bind what the walk has declared in them. -/
def BindsDeclared (before : List Entry) (layout : Layout) : Prop :=
  ∀ table ∈ layout.tables, table.repeats.map Prod.fst =
    ((Entry.repeats before).filter (·.1 = table.repeatPath)).map Prod.snd

def BindsPlaces (layout : Layout) : Prop :=
  ∀ table ∈ layout.tables, ∀ path place,
    (path, place) ∈ table.repeats → layout.placeOf? path = some place

variable {connection : String} {before : List Entry} {layout next : Layout} {entry : Entry}

/-- What is declared in tables that an entry does not belong to stays as it was. -/
theorem filter_repeats_snoc_of_ne {inside other : Option String} {path : String}
    (declares : entry.repeat? = some (inside, path)) (different : other ≠ inside) :
    (Entry.repeats (before ++ [entry])).filter (·.1 = other) =
      (Entry.repeats before).filter (·.1 = other) := by
  rw [Entry.repeats_append, Entry.repeats_singleton, declares]
  simp [different.symm]

theorem filter_repeats_snoc {inside : Option String} {path : String}
    (declares : entry.repeat? = some (inside, path)) :
    (Entry.repeats (before ++ [entry])).filter (·.1 = inside) =
      (Entry.repeats before).filter (·.1 = inside) ++ [(inside, path)] := by
  rw [Entry.repeats_append, Entry.repeats_singleton, declares]
  simp

theorem bindsDeclared_step (placed : Entry.Placed before) (laid : Laid before layout)
    (step : Step connection before layout entry next) (valid : BindsDeclared before layout) :
    BindsDeclared (before ++ [entry]) next := by
  cases step with
  | @field _ table found own plain =>
    have unchanged : Entry.repeats (before ++ [entry]) = Entry.repeats before := by
      rw [Entry.repeats_append, Entry.repeats_singleton, plain, Option.toList_none, List.append_nil]
    refine laid.forall_mem_modifyTable found ?_ ?_
    · intro other member _
      rw [unchanged]
      exact valid other member
    · rw [unchanged, Table.repeats_addField, Table.repeatPath_addField]
      exact valid table (mem_tables_of_table? found)
  | @sharing _ _ table _ found own declares known =>
    refine laid.forall_mem_modifyTable found ?_ ?_
    · intro other member different
      rw [filter_repeats_snoc_of_ne declares (own ▸ different)]
      exact valid other member
    · rw [Table.repeats_bindRows, Table.repeatPath_bindRows, own, filter_repeats_snoc declares]
      simp [valid table (mem_tables_of_table? found), own]
  | @opening _ table path name found own declares unknown fresh =>
    apply forall_mem_append
    · refine laid.forall_mem_modifyTable found ?_ ?_
      · intro other member different
        rw [filter_repeats_snoc_of_ne declares (own ▸ different)]
        exact valid other member
      · rw [Table.repeats_adopt, Table.repeatPath_adopt, own, filter_repeats_snoc declares]
        simp [valid table (mem_tables_of_table? found), own]
    · have outside := laid.inside_ne placed found own unknown
      have empty : (Entry.repeats before).filter (·.1 = some path) = [] := by
        rw [List.filter_eq_nil_iff]
        rintro ⟨inside, other⟩ declared equal
        obtain ⟨entry, member, rfl⟩ := Entry.mem_of_mem_repeats declared
        exact outside entry (List.mem_append_left _ member) (by simpa using equal)
      have different : some path ≠ entry.inside :=
        (outside entry (List.mem_append_right _ List.mem_cons_self)).symm
      change _ = ((Entry.repeats (before ++ [entry])).filter (·.1 = some path)).map Prod.snd
      rw [filter_repeats_snoc_of_ne declares different, empty]
      rfl

/-- The repeat groups of each table are those declared in it. -/
theorem bindsDeclared_infer (form : Form) : BindsDeclared form.entries (infer form) := by
  refine infer_induction form ?_ ?_
  · rintro table member
    obtain rfl := List.mem_singleton.1 member
    rfl
  · exact fun _ _ _ _ placed laid step valid => bindsDeclared_step placed laid step valid

theorem exists_mem_repeats_iff (form : Form) {table : Table}
    (member : table ∈ (infer form).tables) {path : String} :
    (∃ place, (path, place) ∈ table.repeats) ↔ (table.repeatPath, path) ∈ form.repeats := by
  have declared := bindsDeclared_infer form table member
  constructor
  · rintro ⟨place, bound⟩
    have listed : path ∈ table.repeats.map Prod.fst := List.mem_map_of_mem bound
    rw [declared, List.mem_map] at listed
    obtain ⟨⟨inside, _⟩, known, rfl⟩ := listed
    obtain ⟨known, same⟩ := List.mem_filter.1 known
    rw [decide_eq_true_eq] at same
    exact same ▸ known
  · intro known
    have listed : path ∈ table.repeats.map Prod.fst := by
      rw [declared, List.mem_map]
      exact ⟨_, List.mem_filter.2 ⟨known, by simp⟩, rfl⟩
    obtain ⟨⟨_, place⟩, bound, rfl⟩ := List.mem_map.1 listed
    exact ⟨place, bound⟩

theorem bindsPlaces_step (laid : Laid before layout)
    (step : Step connection before layout entry next) (valid : BindsPlaces layout) :
    BindsPlaces next := by
  have stays {path : String} {place : Nat} : layout.placeOf? path = some place →
      next.placeOf? path = some place := placeOf?_step step
  have old : ∀ table ∈ layout.tables, ∀ path place,
      (path, place) ∈ table.repeats → next.placeOf? path = some place :=
    fun table member path place bound => stays (valid table member path place bound)
  have laid' := laid_step laid step
  cases step with
  | field =>
    refine forall_mem_modifyTable old fun table _ holds => ?_
    rwa [Table.repeats_addField]
  | sharing _ _ _ known =>
    refine forall_mem_modifyTable old fun table _ holds path place bound => ?_
    rw [Table.repeats_bindRows, List.mem_append, List.mem_singleton] at bound
    rcases bound with bound | equal
    · exact holds path place bound
    · cases equal
      exact stays known
  | @opening place _ shared name =>
    refine forall_mem_append
      (forall_mem_modifyTable old fun table _ holds path child bound => ?_) ?_
    · rw [Table.repeats_adopt, List.mem_append, List.mem_singleton] at bound
      rcases bound with bound | equal
      · exact holds path child bound
      · cases equal
        have opened := table?_append
          (layout.modifyTable place (·.adopt name shared layout.tables.length))
          (Table.start name (connection ++ "_" ++ name) (some shared)) layout.tables.length
        rw [length_modifyTable, if_pos rfl] at opened
        exact laid'.placeOf?_of_table? opened rfl
    · simp

theorem bindsPlaces_infer (form : Form) : BindsPlaces (infer form) := by
  refine infer_induction form ?_ fun _ _ _ _ _ laid step valid => bindsPlaces_step laid step valid
  intro table member path place bound
  obtain rfl := List.mem_singleton.1 member
  exact absurd bound List.not_mem_nil

theorem exists_table_of_mem_repeats (form : Form) {table : Table}
    (member : table ∈ (infer form).tables) {path : String} {place : Nat}
    (bound : (path, place) ∈ table.repeats) :
    ∃ child, (infer form).table? place = some child ∧ child.repeatPath = some path :=
  table?_of_placeOf? (bindsPlaces_infer form table member path place bound)

end Layout

end SurveyTables
