import SurveyTables.Proofs.Flatten.Calls
import SurveyTables.Proofs.Layout.Names
import SurveyTables.Proofs.Text.Case

/-! What a layout promises to those that use it. Tables and columns are told apart by name, child
tables have plain names, and every reference from a table to a child table leads to one, whatever
names and paths the form has. -/
namespace SurveyTables

/-- Characters of the names of child tables. -/
def Text.IsPlain (c : Char) : Prop := ('a' ≤ c ∧ c ≤ 'z') ∨ ('0' ≤ c ∧ c ≤ '9') ∨ c = '_'

namespace Layout

open Text (IsPlain)

theorem isPlain_of_isDigit {c : Char} (digit : c.isDigit = true) : IsPlain c := by
  simp only [Char.isDigit, Bool.and_eq_true, decide_eq_true_eq] at digit
  exact .inr (.inl digit)

theorem isPlain_of_isLower {c : Char} (lower : c.isLower = true) : IsPlain c := by
  have range := Bool.and_eq_true_iff.1 lower
  exact .inl ⟨of_decide_eq_true range.1, of_decide_eq_true range.2⟩

/-- Upper case is gone before a character is looked at. -/
theorem isPlain_suggestedName (name : String) : ∀ c ∈ (suggestedName name).toList, IsPlain c := by
  intro c member
  rw [suggestedName, String.toList_ofList] at member
  obtain ⟨original, -, rfl⟩ := List.mem_map.1 member
  dsimp only
  split
  · next keeps =>
    rcases Bool.or_eq_true_iff.1 keeps with alphanumeric | underscore
    · rcases Bool.or_eq_true_iff.1 alphanumeric with letter | digit
      · exact isPlain_of_isLower (Text.isLower_of_isAlpha_toLower letter)
      · exact isPlain_of_isDigit digit
    · exact .inr (.inr (of_decide_eq_true underscore))
  · exact .inr (.inr rfl)

theorem isPlain_numbered {name : String} (plain : ∀ c ∈ name.toList, IsPlain c) (n : Nat) :
    ∀ c ∈ (numbered name n).toList, IsPlain c := by
  intro c member
  rw [toList_numbered, List.mem_append, List.mem_cons] at member
  rcases member with old | rfl | digit
  · exact plain c old
  · exact .inr (.inr rfl)
  · rw [Text.natNumeral, String.toList_ofList] at digit
    exact isPlain_of_isDigit (Nat.isDigit_of_mem_toDigits (by decide) (by decide) digit)

theorem freeName_cases (used : List String) (name : String) :
    freeName used name = name ∨ ∃ n, freeName used name = numbered name n := by
  unfold freeName
  split
  · cases found : ((List.range' 2 used.length).map (numbered name)).find? (!used.contains ·) with
    | none => exact .inl rfl
    | some free =>
      obtain ⟨n, -, same⟩ := List.mem_map.1 (List.mem_of_find?_eq_some found)
      exact .inr ⟨n, same.symm⟩
  · exact .inl rfl

theorem isPlain_freeName {name : String} (plain : ∀ c ∈ name.toList, IsPlain c)
    (used : List String) : ∀ c ∈ (freeName used name).toList, IsPlain c := by
  rcases freeName_cases used name with same | ⟨n, same⟩
  · rw [same]
    exact plain
  · rw [same]
    exact isPlain_numbered plain n

end Layout

namespace Table

open Text (IsPlain)

def Headed (connection : String) (table : Table) : Prop :=
  match table.repeatPath with
  | none => table.name = rootName ∧ table.schema.connectionName = connection
  | some _ => (∀ c ∈ table.name.toList, IsPlain c) ∧
      table.schema.connectionName = connection ++ "_" ++ table.name

/-- What a change to a table leaves as it is. -/
theorem Headed.of_eq {connection : String} {table other : Table} (headed : table.Headed connection)
    (path : other.repeatPath = table.repeatPath) (name : other.name = table.name)
    (known : other.schema.connectionName = table.schema.connectionName) :
    other.Headed connection := by
  unfold Headed
  rw [path, name, known]
  exact headed

theorem headed_start {connection name : String} (plain : ∀ c ∈ name.toList, IsPlain c)
    (path : String) : (start name (connection ++ "_" ++ name) (some path)).Headed connection :=
  ⟨plain, rfl⟩

theorem headed_addField {connection : String} {table : Table} (headed : table.Headed connection)
    (field : Field) : (table.addField field).Headed connection := by
  rcases addField_cases table field with same | ⟨-, -, added⟩
  · rw [same]
    exact headed
  · rw [added]
    exact headed.of_eq rfl rfl rfl

end Table

namespace Layout

theorem headed_step {connection : String} {before : List Entry} {layout next : Layout}
    {entry : Entry} (step : Step connection before layout entry next)
    (headed : ∀ table ∈ layout.tables, table.Headed connection) :
    ∀ table ∈ next.tables, table.Headed connection := by
  cases step with
  | field => exact forall_mem_modifyTable headed fun table _ holds => Table.headed_addField holds _
  | sharing => exact forall_mem_modifyTable headed fun table _ holds => holds.of_eq rfl rfl rfl
  | opening found own declares unknown fresh =>
    refine forall_mem_append
      (forall_mem_modifyTable headed fun table _ holds => holds.of_eq rfl rfl rfl) ?_
    rw [fresh]
    exact Table.headed_start (isPlain_freeName (isPlain_suggestedName _) _) _

theorem headed_infer (form : Form) :
    ∀ table ∈ (infer form).tables, table.Headed form.connectionName := by
  refine infer_induction form ?_ fun _ _ _ _ _ _ step headed => headed_step step headed
  intro table member
  obtain rfl := List.mem_singleton.1 member
  exact ⟨rfl, rfl⟩

theorem connection_ne (connection name : String) : connection ++ "_" ++ name ≠ connection := by
  intro same
  have length := congrArg (List.length ∘ String.toList) same
  simp [String.toList_append] at length

/-- The connection name of a table tells its name. -/
theorem name_eq_of_connectionName {connection : String} {table other : Table}
    (headed : table.Headed connection) (headed' : other.Headed connection)
    (same : table.schema.connectionName = other.schema.connectionName) :
    table.name = other.name := by
  unfold Table.Headed at headed headed'
  cases path : table.repeatPath <;> cases path' : other.repeatPath <;>
    simp only [path, path'] at headed headed'
  case none.none => rw [headed.1, headed'.1]
  case none.some =>
    rw [headed.2, headed'.2] at same
    exact absurd same.symm (connection_ne _ _)
  case some.none =>
    rw [headed.2, headed'.2] at same
    exact absurd same (connection_ne _ _)
  case some.some =>
    rw [headed.2, headed'.2] at same
    have chars := congrArg String.toList same
    simp only [String.toList_append, List.append_cancel_left_eq] at chars
    exact String.toList_injective chars

theorem nodup_connectionNames (form : Form) :
    ((infer form).tables.map fun table => table.schema.connectionName).Nodup := by
  have apart := namesApart_infer form
  refine List.Nodup.map_on (fun table member other member' same => ?_) (apart.distinct.of_map _)
  exact apart.eq_of_name member member'
    (name_eq_of_connectionName (headed_infer form table member) (headed_infer form other member')
      same)

theorem linkageOf_sublist (repeatPath : Option String) :
    ((Table.linkageOf repeatPath).map Column.id).Sublist linkColumns := by
  cases repeatPath with
  | none => exact .cons_cons _ (List.nil_sublist _)
  | some path => exact List.Sublist.refl _

theorem nodup_columnIds {table : Table} (valid : table.WellNamed) :
    table.schema.columnIds.Nodup := by
  rw [TableSchema.columnIds, valid.columns, List.map_append]
  exact valid.distinct.sublist ((linkageOf_sublist _).append (List.Sublist.refl _))

theorem exists_repeatPath (form : Form) {place : Nat} {child : Table}
    (found : (infer form).table? (place + 1) = some child) :
    ∃ path, child.repeatPath = some path := by
  cases own : child.repeatPath with
  | some path => exact ⟨path, rfl⟩
  | none =>
    have laid := laid_infer form
    have rooted : (infer form).table? 0 = some (infer form).root := rfl
    have same := laid.place_unique found rooted (own.trans laid.root.symm)
    exact absurd same (Nat.succ_ne_zero place)

/-- What is relied on when a layout is used: the root table comes first, tables and columns are
told apart, and a binding to a repeat group holds the place of the group's table. -/
structure WellFormed (layout : Layout) : Prop where
  first : ∃ root, layout.tables[0]? = some root ∧ root.repeatPath = none ∧ root.name = "data"
  names : (layout.tables.map Table.name).Nodup
  connections : (layout.tables.map fun table => table.schema.connectionName).Nodup
  columns : ∀ table ∈ layout.tables, table.schema.columnIds.Nodup
  plain : ∀ place child, layout.tables[place + 1]? = some child →
    ∀ c ∈ child.name.toList, ('a' ≤ c ∧ c ≤ 'z') ∨ ('0' ≤ c ∧ c ≤ '9') ∨ c = '_'
  references : ∀ table ∈ layout.tables, ∀ path place, .rows path place ∈ table.bindings →
    place ≠ 0 ∧ ∃ child, layout.tables[place]? = some child ∧ child.repeatPath = some path
  /-- whatever the answers are, an element of a repeat group finds its table -/
  resolved : ∀ table ∈ layout.tables, ∀ answers path place value,
    .item path place value ∈ table.elements answers →
      place < layout.tables.length ∧ ∃ child, layout.table? place = some child

theorem wellFormed_infer (form : Form) : WellFormed (infer form) where
  first := by
    have headed := headed_infer form (infer form).root (root_mem_tables _)
    have rooted := (laid_infer form).root
    unfold Table.Headed at headed
    rw [rooted] at headed
    exact ⟨(infer form).root, rfl, rooted, headed.1⟩
  names := (namesApart_infer form).distinct
  connections := nodup_connectionNames form
  columns table member := nodup_columnIds (wellNamed_infer form table member)
  plain := by
    intro place child found
    obtain ⟨path, own⟩ := exists_repeatPath form found
    have headed := headed_infer form child (mem_tables_of_table? found)
    unfold Table.Headed at headed
    rw [own] at headed
    exact headed.1
  references := by
    intro table member path place bound
    obtain ⟨child, found, own⟩ :=
      exists_table_of_mem_repeats form member (Table.mem_repeats.2 bound)
    refine ⟨?_, child, found, own⟩
    rintro rfl
    obtain rfl : (infer form).root = child := Option.some.inj found
    rw [(laid_infer form).root] at own
    contradiction
  resolved := by
    intro table member answers path place value listed
    obtain ⟨bound, -⟩ := Table.mem_elements.1 listed
    obtain ⟨child, found, -⟩ := exists_table_of_mem_repeats form member bound
    exact ⟨lt_length_of_table? found, child, found⟩

end Layout

end SurveyTables
