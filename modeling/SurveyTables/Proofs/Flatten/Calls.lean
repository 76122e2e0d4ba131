import Mathlib.Data.List.Forall2
import SurveyTables.Flatten
import SurveyTables.Proofs.Layout.Bindings

/-! What flattening makes of one object: its row, and below it one row for each element that its
repeat groups hold, in order. Opened to a given depth, the calls compute. -/
namespace SurveyTables

namespace Except

theorem bind_eq_ok {ε α β : Type} {x : Except ε α} {f : α → Except ε β} {b : β} :
    x >>= f = .ok b ↔ ∃ a, x = .ok a ∧ f a = .ok b := by
  cases x with
  | error e => simp [bind, Except.bind]
  | ok a => simp [bind, Except.bind]

theorem bind_eq_error {ε α β : Type} {x : Except ε α} {f : α → Except ε β} {error : ε} :
    x >>= f = .error error ↔ x = .error error ∨ ∃ a, x = .ok a ∧ f a = .error error := by
  cases x with
  | error e => simp [bind, Except.bind]
  | ok a => simp [bind, Except.bind]

theorem mapError_eq_ok {ε ζ α : Type} {x : Except ε α} {f : ε → ζ} {a : α} :
    x.mapError f = .ok a ↔ x = .ok a := by
  cases x <;> simp [Except.mapError]

theorem mapError_eq_error {ε ζ α : Type} {x : Except ε α} {f : ε → ζ} {error : ζ} :
    x.mapError f = .error error ↔ ∃ cause, x = .error cause ∧ f cause = error := by
  cases x <;> simp [Except.mapError]

theorem forall₂_of_mapM_eq_ok {ε α β : Type} {f : α → Except ε β} {xs : List α} {ys : List β}
    (ok : xs.mapM f = .ok ys) : List.Forall₂ (fun x y => f x = .ok y) xs ys := by
  induction xs generalizing ys with
  | nil =>
    cases ok
    exact .nil
  | cons x xs ih =>
    rw [List.mapM_cons, bind_eq_ok] at ok
    obtain ⟨y, first, ok⟩ := ok
    obtain ⟨later, rest, ok⟩ := bind_eq_ok.1 ok
    cases ok
    exact .cons first (ih rest)

/-- Computations that fail with the same error, if one of them fails. -/
def FailAlike {ε α : Type} (x y : Except ε α) : Prop :=
  ∀ error, x = .error error ↔ y = .error error

theorem failAlike_bind {ε α β : Type} {x y : Except ε α} {f g : α → Except ε β}
    (first : FailAlike x y)
    (later : ∀ a b, x = .ok a → y = .ok b → FailAlike (f a) (g b)) :
    FailAlike (x >>= f) (y >>= g) := by
  cases x with
  | error error =>
    rw [(first error).1 rfl]
    exact fun _ => Iff.rfl
  | ok a =>
    cases y with
    | error error => exact absurd ((first error).2 rfl) (by simp)
    | ok b => exact later a b rfl rfl

theorem failAlike_mapError {ε ζ α : Type} {x y : Except ε α} (alike : FailAlike x y) (f : ε → ζ) :
    FailAlike (x.mapError f) (y.mapError f) := by
  cases x with
  | error error =>
    rw [(alike error).1 rfl]
    exact fun _ => Iff.rfl
  | ok a =>
    cases y with
    | error error => exact absurd ((alike error).2 rfl) (by simp)
    | ok b => simp [FailAlike, Except.mapError]

end Except

namespace Flatten

def assemble (origin : Origin) (table : Table) (answers : Keyed Json) (id : Nat)
    (parent : Option ParentLink) (children : List Row) : Row where
  table := table.name
  id := id
  parent := parent
  columns := table.cells origin answers
  childTables := origin.exporter.layout.childNames table
  children := children

theorem row_ok_iff {origin : Origin} {table : Table} {answers : Keyed Json} {id : Nat}
    {parent : Option ParentLink} {made : Row} :
    row origin table answers id parent = .ok made ↔
      ∃ children, childRows origin ⟨id, table.name⟩ 1 (table.elements answers) = .ok children ∧
        made = assemble origin table answers id parent children := by
  rw [row, Except.bind_eq_ok]
  simp only [pure, Except.pure, Except.ok.injEq, eq_comm, assemble]

theorem fields_of_row {origin : Origin} {table : Table} {answers : Keyed Json} {id : Nat}
    {parent : Option ParentLink} {made : Row}
    (call : row origin table answers id parent = .ok made) :
    made.table = table.name ∧ made.id = id ∧ made.parent = parent ∧
      made.columns = table.cells origin answers ∧
      made.childTables = origin.exporter.layout.childNames table ∧
      childRows origin ⟨id, table.name⟩ 1 (table.elements answers) = .ok made.children := by
  obtain ⟨children, below, rfl⟩ := row_ok_iff.1 call
  exact ⟨rfl, rfl, rfl, rfl, rfl, below⟩

/-- The row that an element makes below a parent, under its ordinal. -/
inductive Makes (origin : Origin) (parent : ParentLink) : Element × Nat → Row → Prop
  | item {path : String} {place ordinal : Nat} {answers : Keyed Json} {table : Table} {made : Row}
      (found : origin.exporter.layout.table? place = some table)
      (call : row origin table answers (RowId.pair parent.id ordinal) (some parent) = .ok made) :
      Makes origin parent (.item path place (.object answers), ordinal) made

def Resolved (layout : Layout) (elements : List Element) : Prop :=
  ∀ path place value, .item path place value ∈ elements →
    ∃ table, layout.table? place = some table

theorem childRows_cons_of_makes {origin : Origin} {parent : ParentLink} {ordinal : Nat}
    {element : Element} {rest : List Element} {made : Row} {later : List Row}
    (makes : Makes origin parent (element, ordinal) made)
    (below : childRows origin parent (ordinal + 1) rest = .ok later) :
    childRows origin parent ordinal (element :: rest) = .ok (made :: later) := by
  cases makes with
  | item found call =>
    simp only [childRows, found, call, below, bind, Except.bind, pure, Except.pure]

/-- If elements make rows, the first makes one of its own when its object leads to a table. -/
theorem exists_makes_of_childRows_cons {origin : Origin} {parent : ParentLink} {ordinal : Nat}
    {element : Element} {rest : List Element} {rows : List Row}
    (resolved : ∀ path place members, element = .item path place (.object members) →
      ∃ table, origin.exporter.layout.table? place = some table)
    (ok : childRows origin parent ordinal (element :: rest) = .ok rows) :
    ∃ made later, Makes origin parent (element, ordinal) made ∧
      childRows origin parent (ordinal + 1) rest = .ok later ∧ rows = made :: later := by
  cases element with
  | notAList path => simp [childRows] at ok
  | item path place value =>
    cases value with
    | object members =>
      obtain ⟨table, found⟩ := resolved path place members rfl
      simp only [childRows, found, Except.bind_eq_ok, pure, Except.pure, Except.ok.injEq] at ok
      obtain ⟨made, call, later, below, rfl⟩ := ok
      exact ⟨made, later, .item found call, below, rfl⟩
    | _ => simp [childRows] at ok

theorem forall₂_makes_of_childRows {origin : Origin} {parent : ParentLink} {ordinal : Nat}
    {elements : List Element} {rows : List Row}
    (resolved : Resolved origin.exporter.layout elements)
    (ok : childRows origin parent ordinal elements = .ok rows) :
    List.Forall₂ (Makes origin parent) (elements.zipIdx ordinal) rows := by
  induction elements generalizing ordinal rows with
  | nil =>
    rw [childRows] at ok
    cases ok
    exact .nil
  | cons element rest ih =>
    have here : ∀ path place members, element = .item path place (.object members) →
        ∃ table, origin.exporter.layout.table? place = some table := by
      rintro path place members rfl
      exact resolved path place _ List.mem_cons_self
    have later : Resolved origin.exporter.layout rest := fun path place value member =>
      resolved path place value (List.mem_cons_of_mem _ member)
    obtain ⟨made, rows, makes, below, rfl⟩ := exists_makes_of_childRows_cons here ok
    exact .cons makes (ih later below)

def childRowsBy (make : Table → Keyed Json → Nat → Option ParentLink → Except FlattenError Row)
    (origin : Origin) (parent : ParentLink) (ordinal : Nat) :
    List Element → Except FlattenError (List Row)
  | [] => .ok []
  | .notAList path :: _ => .error (.malformedRepeat origin.instanceId path)
  | .item _ place (.object answers) :: rest =>
    match origin.exporter.layout.table? place with
    | none => childRowsBy make origin parent (ordinal + 1) rest
    | some table => do
      let first ← make table answers (RowId.pair parent.id ordinal) (some parent)
      return first :: (← childRowsBy make origin parent (ordinal + 1) rest)
  | .item path _ _ :: _ => .error (.malformedElement origin.instanceId path ordinal)

theorem childRowsBy_row (origin : Origin) (parent : ParentLink) (ordinal : Nat)
    (elements : List Element) :
    childRowsBy (row origin) origin parent ordinal elements =
      childRows origin parent ordinal elements := by
  induction elements generalizing ordinal with
  | nil => rw [childRowsBy, childRows]
  | cons element rest ih =>
    cases element with
    | notAList path => rw [childRowsBy, childRows]
    | item path place value =>
      cases value with
      | object answers =>
        rw [childRowsBy, childRows]
        cases origin.exporter.layout.table? place with
        | none => exact ih (ordinal + 1)
        | some table => simp only [ih]
      | _ => rw [childRowsBy, childRows] <;> simp

/-- The row again, made step by step on as many levels as are given. It computes, where `row`,
which recurses on the depth of the answers, does not. -/
def rowTo (origin : Origin) : Nat → Table → Keyed Json → Nat → Option ParentLink →
    Except FlattenError Row
  | 0, table, answers, id, parent => row origin table answers id parent
  | depth + 1, table, answers, id, parent => do
    let children ← childRowsBy (rowTo origin depth) origin ⟨id, table.name⟩ 1
      (table.elements answers)
    return assemble origin table answers id parent children

theorem rowTo_eq_row {origin : Origin} {depth : Nat} {table : Table} {answers : Keyed Json}
    {id : Nat} {parent : Option ParentLink} :
    rowTo origin depth table answers id parent = row origin table answers id parent := by
  induction depth generalizing table answers id parent with
  | zero => rfl
  | succ depth ih =>
    have below : rowTo origin depth = row origin := by
      funext table answers id parent
      exact ih
    rw [rowTo, below, childRowsBy_row, row]
    rfl

end Flatten

namespace Exporter

def flattenTo (depth : Nat) (exporter : Exporter) (submission : Submission) :
    Except FlattenError Row :=
  match submission.instanceId? with
  | none => .error .missingInstanceId
  | some (.negSucc n) => .error (.negativeInstanceId (.negSucc n))
  | some (.ofNat id) =>
    Flatten.rowTo ⟨exporter, id, submission.attachments⟩ depth exporter.layout.root
      submission.answers id none

theorem flattenTo_eq_flatten (depth : Nat) (exporter : Exporter) :
    exporter.flattenTo depth = exporter.flatten := by
  funext submission
  rw [flattenTo, flatten]
  cases submission.instanceId? with
  | none => rfl
  | some number =>
    cases number with
    | ofNat id => exact Flatten.rowTo_eq_row
    | negSucc n => rfl

end Exporter

namespace Table

theorem elements_eq (table : Table) (answers : Keyed Json) :
    table.elements answers =
      table.repeats.flatMap fun bound => Binding.elements answers (.rows bound.1 bound.2) := by
  rw [elements, repeats]
  induction table.bindings with
  | nil => rfl
  | cons binding rest ih =>
    rw [List.flatMap_cons, ih]
    cases binding with
    | rows path place => rfl
    | _ => rfl

theorem mem_elements {table : Table} {answers : Keyed Json} {path : String} {place : Nat}
    {value : Json} :
    .item path place value ∈ table.elements answers ↔
      (path, place) ∈ table.repeats ∧
        ∃ items, answers.get? path = some (.array items) ∧ value ∈ items := by
  rw [elements_eq, List.mem_flatMap]
  constructor
  · rintro ⟨⟨path', place'⟩, bound, member⟩
    simp only [Binding.elements] at member
    split at member
    · simp at member
    · simp at member
    · next items stored =>
      obtain ⟨item, listed, same⟩ := List.mem_map.1 member
      cases same
      exact ⟨bound, items, stored, listed⟩
    · simp at member
  · rintro ⟨bound, items, stored, listed⟩
    refine ⟨(path, place), bound, ?_⟩
    simp only [Binding.elements, stored]
    exact List.mem_map_of_mem listed

end Table

theorem Layout.mem_childNames {layout : Layout} {table : Table} {name : String} :
    name ∈ layout.childNames table ↔
      ∃ path place child, (path, place) ∈ table.repeats ∧ layout.table? place = some child ∧
        child.name = name := by
  rw [childNames, List.mem_eraseDups, List.mem_filterMap, Table.childTables_eq]
  constructor
  · rintro ⟨place, listed, named⟩
    obtain ⟨⟨path, place⟩, bound, rfl⟩ := List.mem_map.1 listed
    obtain ⟨child, found, same⟩ := Option.map_eq_some_iff.1 named
    exact ⟨path, place, child, bound, found, same⟩
  · rintro ⟨path, place, child, bound, found, rfl⟩
    exact ⟨place, List.mem_map_of_mem bound, by rw [found]; rfl⟩

end SurveyTables
