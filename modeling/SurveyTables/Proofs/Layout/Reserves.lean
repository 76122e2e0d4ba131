import SurveyTables.Proofs.Layout.Names

/-! Names that tables reserve. A table reserves the name of each child table that is opened from
it, so none of its columns has that name, whether declared before or after. A table that only
shares a child table, which another one opened, reserves nothing. -/
namespace SurveyTables

namespace Table

def Reserves (table : Table) (name : String) : Prop :=
  name ∈ table.taken ∧ name ∉ table.fieldNames

variable {table : Table} {name : String}

theorem reserves_addField (reserved : table.Reserves name) (field : Field) :
    (table.addField field).Reserves name := by
  rcases addField_cases table field with same | ⟨unused, -, added⟩
  · rw [same]
    exact reserved
  · rw [added]
    constructor
    · exact List.mem_append_left _ reserved.1
    · intro member
      simp only [fieldNames, fieldColumns, List.flatMap_append, List.map_append,
        List.flatMap_singleton, columns_contribution] at member
      rcases List.mem_append.1 member with old | new
      · exact reserved.2 old
      · exact unused name new reserved.1

theorem reserves_bindRows (reserved : table.Reserves name) (path : String) (child : Nat) :
    (table.bindRows path child).Reserves name := by
  refine ⟨reserved.1, ?_⟩
  rw [fieldNames_bindRows]
  exact reserved.2

theorem reserves_adopt (reserved : table.Reserves name) (other path : String) (child : Nat) :
    (table.adopt other path child).Reserves name := by
  have kept : (table.reserve other).Reserves name :=
    ⟨List.mem_append_left _ reserved.1, reserved.2⟩
  exact reserves_bindRows kept path child

theorem reserves_adopt_self (valid : table.WellNamed) (unused : name ∉ table.taken)
    (path : String) (child : Nat) : (table.adopt name path child).Reserves name := by
  have reserved : (table.reserve name).Reserves name := by
    refine ⟨List.mem_append_right _ List.mem_cons_self, fun member => ?_⟩
    exact unused (valid.taken name (List.mem_append_right _ member))
  exact reserves_bindRows reserved path child

end Table

namespace Layout

/-- Tables reserve the names of the child tables that were declared in them first. -/
def ReservesFirst (before : List Entry) (layout : Layout) : Prop :=
  ∀ table ∈ layout.tables, ∀ child ∈ layout.tables, ∀ path, child.repeatPath = some path →
    Entry.firstInside? before path = some table.repeatPath → table.Reserves child.name

variable {connection : String} {before : List Entry} {layout next : Layout} {entry : Entry}

theorem reservesFirst_step (placed : Entry.Placed before) (laid : Laid before layout)
    (named : ∀ table ∈ layout.tables, table.WellNamed)
    (step : Step connection before layout entry next) (valid : ReservesFirst before layout) :
    ReservesFirst (before ++ [entry]) next := by
  have old : ∀ table ∈ layout.tables, ∀ child ∈ layout.tables, ∀ path,
      child.repeatPath = some path →
      Entry.firstInside? (before ++ [entry]) path = some table.repeatPath →
      table.Reserves child.name := by
    intro table member child member' path own first
    have known := laid.mem_paths_of_mem_tables member' own
    rw [Entry.firstInside?_append_of_mem known] at first
    exact valid table member child member' path own first
  cases step with
  | field =>
    refine forall_mem_modifyTable (fun table member => ?_) fun table _ holds => ?_
    · refine forall_mem_modifyTable (old table member) fun child _ holds => ?_
      simpa using holds
    · intro child member path own first
      rw [Table.repeatPath_addField] at first
      exact Table.reserves_addField (holds child member path own first) _
  | sharing =>
    refine forall_mem_modifyTable (fun table member => ?_) fun table _ holds => ?_
    · exact forall_mem_modifyTable (old table member) fun child _ holds => holds
    · intro child member path own first
      exact Table.reserves_bindRows (holds child member path own first) _ _
  | @opening place table path name found own declares unknown fresh =>
    have unused : name ∉ layout.usedNames place := fresh ▸ freeName_not_mem _ _
    rw [mem_usedNames found, not_or] at unused
    have opens := Entry.firstInside?_snoc_repeat unknown declares
    refine forall_mem_append (laid.forall_mem_modifyTable found ?_ ?_) ?_
    · intro other member different
      refine forall_mem_append (forall_mem_modifyTable (old other member) fun _ _ h => h) ?_
      rintro _ ⟨⟩ first
      rw [opens, ← own] at first
      exact absurd (Option.some.inj first).symm different
    · refine forall_mem_append (forall_mem_modifyTable ?_ fun _ _ h => h) ?_
      · intro child member path' own' first
        have reserved := old table (mem_tables_of_table? found) child member path' own' first
        exact Table.reserves_adopt reserved _ _ _
      · rintro _ ⟨⟩ -
        exact Table.reserves_adopt_self (named table (mem_tables_of_table? found)) unused.2 _ _
    · -- Nothing can have been declared first in the table that is opened just now.
      intro child member path' _ first
      have declared := Entry.mem_repeats_of_firstInside? first
      obtain ⟨other, member', below⟩ := Entry.mem_of_mem_repeats declared
      exact absurd below (laid.inside_ne placed found own unknown other member')

/-- No column of a table has the name of a child table that was declared there first. -/
theorem reservesFirst_infer (form : Form) : ReservesFirst form.entries (infer form) := by
  refine infer_induction_wellNamed form ?_ ?_
  · intro table member child member' path own
    obtain rfl := List.mem_singleton.1 member'
    contradiction
  · exact fun _ _ _ _ placed laid named step valid =>
      reservesFirst_step placed laid named step valid

end Layout

end SurveyTables
