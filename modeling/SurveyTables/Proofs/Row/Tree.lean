import Mathlib.Data.List.Nodup
import SurveyTables.Proofs.Row.Number

/-! Rows as trees. A row comes with all rows below it, in depth-first order; what holds of a row
whenever it holds of the rows directly below it holds of every row, and equal rows can be told from
others. -/
namespace SurveyTables.Row

mutual

@[elab_as_elim]
theorem induction {P : Row → Prop} (step : ∀ row, (∀ child ∈ row.children, P child) → P row) :
    ∀ row, P row
  | ⟨_, _, _, _, _, children⟩ => step _ (forall_mem_children step children)

theorem forall_mem_children {P : Row → Prop}
    (step : ∀ row, (∀ child ∈ row.children, P child) → P row) :
    ∀ children : List Row, ∀ child ∈ children, P child
  | [], _, member => absurd member List.not_mem_nil
  | row :: rows, child, member => by
    rcases List.mem_cons.1 member with equal | member
    · exact equal ▸ induction step row
    · exact forall_mem_children step rows child member

end

mutual

def decEq : (row other : Row) → Decidable (row = other)
  | ⟨table, id, parent, columns, childTables, children⟩,
      ⟨table', id', parent', columns', childTables', children'⟩ =>
    have := decEqList children children'
    decidable_of_iff (table = table' ∧ id = id' ∧ parent = parent' ∧ columns = columns' ∧
      childTables = childTables' ∧ children = children') (by simp)

def decEqList : (rows others : List Row) → Decidable (rows = others)
  | [], [] => .isTrue rfl
  | row :: rows, other :: others =>
    have := decEq row other
    have := decEqList rows others
    decidable_of_iff (row = other ∧ rows = others) (by simp)
  | [], _ :: _ | _ :: _, [] => .isFalse nofun

end

instance : DecidableEq Row := decEq

theorem eachWithDescendants_eq (rows : List Row) :
    eachWithDescendants rows = rows.map fun row => (row.table, row.withDescendants) := by
  induction rows with
  | nil => rfl
  | cons row rows ih => rw [eachWithDescendants, ih, List.map_cons]

theorem pick_map {α : Type} (f : Row → α) (rows : List Row) (table : String) :
    pick table (rows.map fun row => (row.table, f row)) =
      (rows.filter (·.table = table)).map f := by
  rw [pick, List.filter_map, List.map_map]
  rfl

theorem withDescendants_eq (row : Row) :
    row.withDescendants = row :: row.childRows.flatMap withDescendants := by
  obtain ⟨table, id, parent, columns, childTables, children⟩ := row
  rw [withDescendants, eachWithDescendants_eq, childRows, List.flatMap_assoc]
  congr 1
  refine List.flatMap_congr fun child _ => ?_
  rw [pick_map]
  rfl

theorem mem_childrenIn {row child : Row} {table : String} :
    child ∈ row.childrenIn table ↔ child ∈ row.children ∧ child.table = table := by
  simp [childrenIn]

theorem mem_childRows {row child : Row} :
    child ∈ row.childRows ↔ child ∈ row.children ∧ child.table ∈ row.childTables := by
  rw [childRows, List.mem_flatMap]
  constructor
  · rintro ⟨table, member, inTable⟩
    obtain ⟨inChildren, rfl⟩ := mem_childrenIn.1 inTable
    exact ⟨inChildren, member⟩
  · rintro ⟨inChildren, member⟩
    exact ⟨child.table, member, mem_childrenIn.2 ⟨inChildren, rfl⟩⟩

theorem mem_withDescendants {row other : Row} :
    other ∈ row.withDescendants ↔
      other = row ∨ ∃ child ∈ row.childRows, other ∈ child.withDescendants := by
  rw [withDescendants_eq, List.mem_cons, List.mem_flatMap]

theorem mem_withDescendants_self (row : Row) : row ∈ row.withDescendants :=
  mem_withDescendants.2 (.inl rfl)

theorem mem_withDescendants_of_childRows {row child : Row} (member : child ∈ row.childRows) :
    child ∈ row.withDescendants :=
  mem_withDescendants.2 (.inr ⟨child, member, mem_withDescendants_self child⟩)

theorem mem_withDescendants_trans {row middle other : Row}
    (upper : middle ∈ row.withDescendants) (lower : other ∈ middle.withDescendants) :
    other ∈ row.withDescendants := by
  induction row using induction with
  | step row ih =>
    rcases mem_withDescendants.1 upper with rfl | ⟨child, member, upper⟩
    · exact lower
    · have below := ih child (mem_childRows.1 member).1 upper
      exact mem_withDescendants.2 (.inr ⟨child, member, below⟩)

/-- A row below another one is a child of some row there, unless it is that row itself. -/
theorem eq_or_mem_childRows {row other : Row} (member : other ∈ row.withDescendants) :
    other = row ∨ ∃ parent ∈ row.withDescendants, other ∈ parent.childRows := by
  induction row using induction with
  | step row ih =>
    rcases mem_withDescendants.1 member with same | ⟨child, isChild, below⟩
    · exact .inl same
    · right
      rcases ih child (mem_childRows.1 isChild).1 below with rfl | ⟨parent, here, isChild'⟩
      · exact ⟨row, mem_withDescendants_self row, isChild⟩
      · exact ⟨parent, mem_withDescendants.2 (.inr ⟨child, isChild, here⟩), isChild'⟩

theorem get?_of_not_mem_linkColumns {row : Row} {name : String} (field : name ∉ linkColumns) :
    row.get? name = row.columns.get? name := by
  simp only [linkColumns, List.mem_cons, List.not_mem_nil, or_false, not_or] at field
  rw [get?, if_neg field.1, if_neg field.2.1, if_neg field.2.2]

theorem get?_idColumn (row : Row) : row.get? idColumn = some (.int row.id) := by
  rw [get?, if_pos rfl, idCell?_eq]

theorem get?_parentIdColumn (row : Row) :
    row.get? parentIdColumn = row.parent.map fun parent => .int parent.id := by
  rw [get?, if_neg (by decide), if_pos rfl]
  cases row.parent with
  | none => rfl
  | some parent => exact idCell?_eq parent.id

theorem get?_parentTableColumn (row : Row) :
    row.get? parentTableColumn = row.parent.map fun parent => .text parent.table := by
  rw [get?, if_neg (by decide), if_neg (by decide), if_pos rfl]

def memberNames (row : Row) : List String :=
  match row.toJson with
  | .object members => members.map Prod.fst
  | _ => []

theorem memberNames_eq (row : Row) :
    row.memberNames = (linkMembers row.id row.parent).map Prod.fst ++ row.columns.keys ++
      row.childTables := by
  obtain ⟨table, id, parent, columns, childTables, children⟩ := row
  simp [memberNames, toJson, Keyed.keys, Function.comp_def]

end SurveyTables.Row
